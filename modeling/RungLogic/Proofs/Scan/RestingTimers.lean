import RungLogic.Proofs.Presets
import RungLogic.Proofs.Scan.Delays
import RungLogic.Proofs.Scan.Recursion

/-!
Timers at rest. An on-delay timer whose input is off forgets what it was at, and then its output is off
unless no time has to elapse at all. So a coil behind a timer with a preset that lasts goes off with the
input of the timer, whichever output of the timer it is wired to.
-/

set_option autoImplicit false
set_option relaxedAutoImplicit false

namespace RungLogic

/-- A preset lasts unless it is a text that denotes no milliseconds at all. -/
def Preset.Lasts (v : Value) : Prop := ¬ ∃ s, v = .text s ∧ Denotes (Text.trim s).toList 0

namespace Scan

variable {w : Surroundings} {e : Element} {m : Memory} {inputs : Table Signal}

/-- A timer is at rest for its readers: its result is kept as off, or its evaluation finds its input off.
-/
inductive Rests (w : Surroundings) (e : Element) (m : Memory) : Prop
  | kept : m.keptSignal? w e = some (.truth false) → m.states.value? e.id = some (.timer {}) →
      Rests w e m
  | evaluated {inputs : Table Signal} {m₁ : Memory} : m.keptSignal? w e = none →
      Gathers w (wiredPorts w.network e) [] m inputs m₁ → isOn inputs "in" = false → Rests w e m

/-- Whatever state the timer is found in, and whatever the clock says. -/
private theorem compute_resting (kind : e.kind = .timerOn) (off : isOn inputs "in" = false)
    (w : Surroundings) (state : Option ElementState) :
    compute w e inputs state =
      { result := .ok (.truth (decide (Preset.duration e.preset = 0))), state := some (.timer {}) } := by
  have step (t : Timer) : ofTimer (t.onDelay false (Preset.duration e.preset) w.now) =
      { result := .ok (.truth (decide (Preset.duration e.preset = 0))), state := some (.timer {}) } := by
    have elapsed : ((Preset.duration e.preset : Int) ≤ 0) ↔ Preset.duration e.preset = 0 := by omega
    simp only [Timer.onDelay, Timer.onDelayNext, Bool.false_and, Bool.false_eq_true, if_false,
      Option.map_some, ofTimer, Number.ge_int, elapsed]
  simp only [compute, kind, timerOn, off, step, Bool.false_eq_true, if_false]
  rcases state with _ | ⟨t⟩ | ⟨c⟩ <;> rfl

/-- What is left when a timer has been evaluated with its input off. -/
def Memory.rested (m : Memory) (w : Surroundings) (e : Element) : Memory :=
  ((m.remember e.id (some (.timer {}))).keep w e (.truth false)).record e.id (.truth false)

private theorem Memory.state_rested (m : Memory) (w : Surroundings) (e : Element) :
    (m.rested w e).states.value? e.id = some (.timer {}) := by
  have states : (m.rested w e).states = (m.remember e.id (some (.timer {}))).states :=
    states_keep _ w e _
  rw [states, states_remember, if_pos rfl, Option.some_or]

private theorem Memory.keptSignal?_rested (kind : e.kind = .timerOn) (m : Memory) {w w' : Surroundings}
    (keeps : w.memoize = true) (keeps' : w'.memoize = true) :
    (m.rested w e).keptSignal? w' e = some (.truth false) := by
  have stateful : e.kind.isStateful = true := by rw [kind]; rfl
  simp only [keptSignal?, rested, record, keep, keeps, keeps', stateful, Bool.and_self, if_true,
    Table.value?_put_self]

private theorem apply_resting (kind : e.kind = .timerOn) (lasting : Preset.Lasts e.preset)
    (off : isOn inputs "in" = false) (w : Surroundings) (m : Memory) :
    apply w e inputs m = (.ok (.truth false), m.rested w e) := by
  have nonzero : Preset.duration e.preset ≠ 0 := fun zero => lasting (Preset.duration_eq_zero_iff.mp zero)
  have computes := compute_resting kind off w (m.states.value? e.id)
  rw [decide_eq_false nonzero] at computes
  have settled : computed w e inputs m = { result := .ok (.truth false), state := some (.timer {}) } := by
    rw [computed, computes]
    rfl
  rw [apply_of_result (by rw [settled]), settled]
  simp only [Memory.say, List.append_nil, Memory.rested]

private theorem Rests.evaluates (rests : Rests w e m) (kind : e.kind = .timerOn)
    (lasting : Preset.Lasts e.preset) :
    ∃ m', Evaluates w e m (.truth false) m' ∧ m'.states.value? e.id = some (.timer {}) := by
  cases rests with
  | kept kept state => exact ⟨m, .kept kept, state⟩
  | @evaluated inputs m₁ unkept gathered off =>
    exact ⟨m₁.rested w e, .applied unkept gathered (apply_resting kind lasting off w m₁),
      m₁.state_rested w e⟩

private theorem portSignal_resting {states : Table ElementState}
    (state : states.value? e.id = some (.timer {})) (kind : e.kind = .timerOn) (port : String) :
    ∃ t, portSignal states e port (.truth false) = .ok t ∧ t.isOn = false := by
  have timer : e.kind.isTimer = true := by rw [kind]; rfl
  have noCounter : e.kind.isCounter = false := by rw [kind]; rfl
  by_cases elapsed : port = "et"
  · subst elapsed
    exact ⟨.num (.int 0), portSignal_elapsed timer state _, rfl⟩
  · exact ⟨.truth false, by simp [portSignal, elapsed, noCounter], rfl⟩

/-- An on-delay timer with a preset that lasts is off at each visit that finds its input off, whatever
state it is found in and whatever the clock says, and it is left at rest; where results are kept, it
rests for the rest of the scan. And when a scan comes to a coil that is wired to a timer at rest, the coil
goes off. -/
theorem onDelay_off_with_input (kind : e.kind = .timerOn) (lasting : Preset.Lasts e.preset) :
    (∀ v : Visit, isOn v.inputs "in" = false →
      v.result e = .ok (.truth false) ∧ v.left e = some (.timer {}) ∧
      (v.around.memoize = true → ∀ w : Surroundings, w.memoize = true →
        Rests w e (apply v.around e v.inputs v.memory).2)) ∧
    (∀ (setting : Setting) (store : Store) (m : Memory), setting.network.element? e.id = some e →
      Rests (setting.over store) e m →
      ∀ s m', evaluate (setting.over store) e m = (.ok s, m') → s = .truth false ∧
        ∀ c source target, c.kind = .coil → coilLine? setting.network c = some (source, target) →
          source.element = e.id → ∀ rest,
            scanElements setting (c :: rest) ⟨store, m⟩ =
              scanElements setting rest (writeCoil c target false ⟨store, m'⟩)) := by
  constructor
  · intro v off
    have applied := apply_resting kind lasting off v.around v.memory
    refine ⟨?_, ?_, fun keeps w keeps' => ?_⟩
    · rw [Visit.result, applied]
    · rw [Visit.left, Visit.states, applied, Memory.state_rested]
    · rw [applied]
      exact .kept (Memory.keptSignal?_rested kind _ keeps keeps') (Memory.state_rested ..)
  · intro setting store m found rests s m' evaluated
    obtain ⟨m₁, evaluates, state⟩ := rests.evaluates kind lasting
    obtain ⟨rfl, rfl⟩ := (evaluates_of_evaluate evaluated).unique _ _ evaluates
    refine ⟨rfl, fun c source target coil line behind rest => ?_⟩
    obtain ⟨t, arrives, off⟩ := portSignal_resting state kind source.port
    have found' : (setting.over store).network.element? source.element = some e := behind ▸ found
    have read : readPort (setting.over store) source m = (.ok t, m') := by
      simp only [readPort, found', evaluated, arrives]
    have value : coilValue c t = false := by
      rw [coilValue, coil, off]
      rfl
    rw [scanElements, line]
    simp only [read, value]

/-- The timer of the lamp below. -/
def delayOf (preset : String) : Element := ⟨"delay", .timerOn, {}, [("preset", .text preset)]⟩

/-- A lamp behind a timer behind a switch. -/
def delayedLamp (preset : String) : Network where
  id := "n"
  elements :=
    [⟨"switch", .contact, {}, [("variable", .text "X1")]⟩, delayOf preset,
      ⟨"lamp", .coil, {}, [("variable", .text "Y1")]⟩]
  connections := [⟨⟨"switch", "out"⟩, ⟨"delay", "in"⟩⟩, ⟨⟨"delay", "q"⟩, ⟨"lamp", "in"⟩⟩]

/-- The switch has gone off when the timer had run for its two seconds, and the lamp goes off with it. -/
theorem lamp_off_with_switch :
    let lamp : Element := ⟨"lamp", .coil, {}, [("variable", .text "Y1")]⟩
    let m : Memory :=
      { states := [("delay", .timer { running := true, start := .int 500, elapsed := .int 2000 })] }
    let setting : Setting := ⟨delayedLamp "T#2s", .int 2600, true⟩
    (delayOf "T#2s").kind = .timerOn ∧ Preset.Lasts (delayOf "T#2s").preset ∧
      Rests (setting.over Store.standard) (delayOf "T#2s") m ∧
      ∃ m', evaluate (setting.over Store.standard) (delayOf "T#2s") m = (.ok (.truth false), m') ∧
        scanElements setting [lamp] ⟨Store.standard, m⟩ =
          (none, writeCoil lamp "Y1" false ⟨Store.standard, m'⟩) := by
  intro lamp m setting
  have lasting : Preset.Lasts (delayOf "T#2s").preset := by
    rw [Preset.Lasts, ← Preset.duration_eq_zero_iff]
    decide
  obtain ⟨m₁, gathered⟩ : ∃ m₁, Gathers (setting.over Store.standard)
      (wiredPorts (delayedLamp "T#2s") (delayOf "T#2s")) [] m [("in", .truth false)] m₁ :=
    ⟨_, .cons rfl (.applied rfl .nil rfl) rfl .nil⟩
  have rests : Rests (setting.over Store.standard) (delayOf "T#2s") m := .evaluated rfl gathered rfl
  have acyclic : ¬ ReachesCycle (delayedLamp "T#2s") "delay" :=
    not_reachesCycle_of_rank (fun _ => True) (fun id => ["switch", "delay", "lamp"].idxOf id)
      (by decide) trivial
  have coherent : (delayedLamp "T#2s").Coherent := (Network.coherent_iff _).mpr rfl
  have consistent : Consistent (delayedLamp "T#2s") m.states := by decide +zetaReduce
  have inside : delayOf "T#2s" ∈ (setting.over Store.standard).network.elements :=
    List.mem_cons_of_mem _ List.mem_cons_self
  obtain ⟨s, m', evaluated⟩ :=
    exists_evaluate_ok (w := setting.over Store.standard) coherent inside acyclic consistent
  obtain ⟨rfl, scans⟩ := (onDelay_off_with_input rfl lasting).2 setting Store.standard m rfl rests s m'
    evaluated
  refine ⟨rfl, lasting, rests, m', evaluated, ?_⟩
  rw [scans lamp ⟨"delay", "q"⟩ "Y1" rfl rfl rfl []]
  rfl

/-- A timer without a time to elapse is on at its first visit, though its input is off. -/
theorem on_without_input :
    let v := Visit.ofInputs (delayOf "T#0ms") (fun _ => false) fun _ => 0
    Visited (delayOf "T#0ms") v 0 ∧ isOn (v 0).inputs "in" = false ∧
      (v 0).result (delayOf "T#0ms") = .ok (.truth true) :=
  ⟨visited_chain _ _ _ 0, rfl, rfl⟩

end Scan

end RungLogic
