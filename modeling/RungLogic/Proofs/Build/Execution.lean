import RungLogic.Proofs.Build.Chain
import RungLogic.Proofs.Build.Meaning
import RungLogic.Proofs.Scan.Recursion

/-!
Evaluation along a built rung. Recursion from an element goes back along the wires to where the rung
begins; read forward it is the accumulator machine. What carries the rung gives the accumulator,
and so does each element that is laid behind it.
-/

set_option autoImplicit false
set_option relaxedAutoImplicit false

namespace RungLogic

open Scan

variable {n : Network} {carrier : Option Element} {l : Laid} {rest : List Laid}

private theorem feed?_eq (n : Network) (id port : String) :
    feed? n id port = ((n.connections.filter fun w => w.target.element = id).find?
      fun w => w.target.port = port).map Connection.source := by
  rw [feed?, List.find?_filter]
  simp

private theorem wiredPorts_eq_nil {e : Element}
    (h : n.connections.filter (fun w => w.target.element = e.id) = []) : wiredPorts n e = [] := by
  simp [wiredPorts, feed?_eq, h]

private theorem Carries.wiredPorts_main (h : Carries n carrier (l :: rest)) :
    wiredPorts n l.main =
      match l.feeder with
      | none => []
      | some a => (l.main.kind.primaryInput, ⟨a.id, a.kind.primaryOutput⟩) ::
          l.side.toList.map fun s => ("in2", ⟨s.id, "out"⟩) := by
  have fits := h.fits
  rcases hfeeder : l.feeder with _ | a
  · refine wiredPorts_eq_nil ?_
    rw [h.entering_main, Laid.wires, hfeeder]
  · have hcontact : l.main.kind.isContact ≠ true := by
      intro hcontact
      simp [fits.contact hcontact] at hfeeder
    rcases hs : l.side with _ | s
    · have hgate : l.main.kind.isGate ≠ true := by
        intro hgate
        simpa [hs] using fits.gate hgate
      simp only [wiredPorts, feed?_eq, h.entering_main, Laid.wires, hfeeder, hs]
      cases hkind : l.main.kind with
      | contact | contactNegated => simp [hkind, Kind.isContact] at hcontact
      | and | or => simp [hkind, Kind.isGate] at hgate
      | timerPulse => exact (fits.counterpart.1 hkind).elim
      | counterUpDown => exact (fits.counterpart.2 hkind).elim
      | _ => simp [readPorts, Kind.primaryInput]
    · have hgate := (fits.side s hs).2
      simp only [wiredPorts, feed?_eq, h.entering_main, Laid.wires, hfeeder, hs]
      rcases Kind.isGate_iff.mp hgate with hkind | hkind <;> simp [hkind, readPorts, Kind.primaryInput]

theorem Carries.feed?_coil (h : Carries n carrier (l :: rest)) (hcoil : l.main.kind.isCoil = true) :
    feed? n l.main.id "in" = l.feeder.map fun a => ⟨a.id, a.kind.primaryOutput⟩ := by
  have hin : l.main.kind.primaryInput = "in" := by
    rcases Kind.isCoil_iff.mp hcoil with hkind | hkind <;> rw [hkind] <;> rfl
  rw [feed?_eq, h.entering_main, Laid.wires]
  rcases l.feeder with _ | a
  · rfl
  · simp [hin]

private theorem evaluates_contact (w : Surroundings) {e : Element} (hcontact : e.kind.isContact = true)
    (m : Memory) : ∃ m₁, Evaluates w e m (contactSignal w.store e) m₁ ∧
      m₁.states = m.states ∧ m₁.kept = m.kept := by
  have hstateful : e.kind.isStateful = false := by
    rcases Kind.isContact_iff.mp hcontact with hkind | hkind <;> rw [hkind] <;> rfl
  have hports : wiredPorts w.network e = [] := by
    rcases Kind.isContact_iff.mp hcontact with hkind | hkind <;> simp [wiredPorts, readPorts, hkind]
  have hkept : m.keptSignal? w e = none := by simp [Memory.keptSignal?, hstateful]
  have hresult : (computed w e [] m).result = .ok (contactSignal w.store e) := by
    rw [computed_contact w hcontact]
  refine ⟨_, .applied hkept (hports ▸ .nil) (apply_of_result hresult), ?_, ?_⟩
  · simp [Memory.record, Memory.keep, hstateful, Memory.say, computed_contact w hcontact,
      Memory.remember]
  · simp [Memory.record, Memory.keep, hstateful, Memory.say, computed_contact w hcontact,
      Memory.remember]

/-- `Pending w m carrier acc live m₁`: with memory `m` the rung has come to `carrier` with the
accumulator `acc`. Where it will be stored, the carrier gives the accumulator and leaves `m₁`; where
it will not, the carrier is not evaluated. -/
inductive Pending (w : Surroundings) (m : Memory) :
    Option Element → Option Signal → Bool → Memory → Prop
  | empty (live : Bool) : Pending w m none none live m
  | live {e : Element} {a : Signal} {m₁ : Memory} :
      Evaluates w e m a m₁ → Pending w m (some e) (some a) true m₁
  | dead (e : Element) (a : Signal) : Pending w m (some e) (some a) false m

theorem Pending.eq_of_dead {w : Surroundings} {m m₁ : Memory} {acc : Option Signal}
    (h : Pending w m carrier acc false m₁) : m₁ = m := by
  cases h with
  | empty => rfl
  | dead => rfl

theorem portSignal_primaryOutput (states : Table ElementState) (e : Element) (s : Signal) :
    portSignal states e e.kind.primaryOutput s = .ok s := by
  have hport : e.kind.primaryOutput ≠ "et" ∧ e.kind.primaryOutput ≠ "cv" := by
    cases e.kind <;> decide
  simp [portSignal, hport]

private theorem Pending.gathers {w : Surroundings} {m m₁ : Memory} {acc : Option Signal}
    (h : Carries w.network carrier (l :: rest)) (pending : Pending w m l.feeder acc true m₁) :
    ∃ m₂, Gathers w (wiredPorts w.network l.main) [] m (l.inputs w.store acc) m₂ ∧
      m₂.states = m₁.states ∧ m₂.kept = m₁.kept := by
  have hports := h.wiredPorts_main
  have hcarrier := h.feeder
  generalize l.feeder = feeder at pending hports hcarrier
  cases pending with
  | empty =>
    rw [hports]
    exact ⟨m, .nil, rfl, rfl⟩
  | @live a v _ evaluates =>
    have found : w.network.element? a.id = some a :=
      h.found a (by simp [← hcarrier.resolve_left (Option.some_ne_none a)])
    have hport := portSignal_primaryOutput m₁.states a v
    rcases hs : l.side with _ | s
    · have hinputs : l.inputs w.store (some v) = Table.put l.main.kind.primaryInput v [] := by
        simp [Laid.inputs, hs, Table.put]
      rw [hports, hs, hinputs]
      exact ⟨m₁, .cons found evaluates hport .nil, rfl, rfl⟩
    · obtain ⟨hcontact, -⟩ := h.fits.side s hs
      obtain ⟨m₂, side, hstates, hkept⟩ := evaluates_contact w hcontact m₁
      have hin1 := l.main.kind.primaryInput_ne_in2
      have hinputs : l.inputs w.store (some v) =
          Table.put "in2" (contactSignal w.store s) (Table.put l.main.kind.primaryInput v []) := by
        simp [Laid.inputs, hs, Table.put, hin1]
      have hout : portSignal m₂.states s "out" (contactSignal w.store s) =
          .ok (contactSignal w.store s) := by
        simp [portSignal]
      rw [hports, hs, hinputs]
      exact ⟨m₂, .cons found evaluates hport (.cons (h.found_side hs) side hout .nil), hstates, hkept⟩

/-- The element that is laid behind the carrier gives what its instruction loads, and leaves the
state of its line. -/
theorem Pending.evaluates {w : Surroundings} (coherent : w.network.Coherent) {c : Cursor}
    {op : Operator} {operand : Option String} {cell : Cell} (hcell : op.cell? = some cell)
    (h : Carries w.network carrier (c.laid operand cell :: rest)) {m m₁ : Memory}
    {acc : Option Signal} (pending : Pending w m (c.laid operand cell).feeder acc true m₁)
    (consistent : Consistent w.network m₁.states)
    (unkept : m.kept.value? (c.laid operand cell).main.id = none)
    {loaded : Signal × Option ElementState}
    (hload : Accumulator.load? w.store w.now operand acc
      (m₁.states.value? (c.laid operand cell).main.id) op = some loaded) :
    ∃ m₂, Evaluates w (c.laid operand cell).main m loaded.1 m₂ ∧
      (∀ id, m₂.states.value? id =
        if id = (c.laid operand cell).main.id then loaded.2 else m₁.states.value? id) ∧
      Consistent w.network m₂.states ∧
      ∀ id s, m₂.kept.value? id = some s →
        id = (c.laid operand cell).main.id ∨ m₁.kept.value? id = some s := by
  have he := Network.mem_of_element? h.found_main
  obtain ⟨m', gathers, hstates, hkept⟩ := pending.gathers h
  rw [← hstates] at hload consistent
  have loads := loads_laid w c hcell acc m' (consistent _ he) hload
  have hfresh : m.keptSignal? w (c.laid operand cell).main = none := by
    simp [Memory.keptSignal?, unkept]
  have happly : apply w (c.laid operand cell).main ((c.laid operand cell).inputs w.store acc) m' =
      (.ok loaded.1, (apply w (c.laid operand cell).main
        ((c.laid operand cell).inputs w.store acc) m').2) := by
    rw [apply_of_result loads.result]
  refine ⟨_, .applied hfresh gathers happly, ?_, consistent.apply coherent he _, ?_⟩
  · intro id
    rw [states_apply, states_remember, ← hstates]
    by_cases hid : id = (c.laid operand cell).main.id
    · rw [if_pos hid, if_pos hid, loads.state]
    · rw [if_neg hid, if_neg hid]
  · intro id s hs
    rw [← hkept]
    exact (kept_apply hs).imp_left And.left

end RungLogic
