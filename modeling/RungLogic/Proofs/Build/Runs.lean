import RungLogic.Proofs.Build.Refinement
import RungLogic.Proofs.Simulation.Events
import RungLogic.Proofs.Simulation.Reached

/-!
Runs of a built network. Writes from outside, advances of the clock and scans come in any order; the
network and the accumulator machine go through them side by side and always have the same variables.
-/

set_option autoImplicit false
set_option relaxedAutoImplicit false

namespace RungLogic

open Scan
open Accumulator (Line program)

def Accumulator.Machine.after (m : Accumulator.Machine) : Event → Accumulator.Machine
  | .write name value => { m with store := orStay m.store (m.store.write name value) }
  | .advance span => { m with clock := orStay m.clock (m.clock.advance span) }
  | .cycle => m.cycle

/-- A simulation of a built network stands where the accumulator machine of its program stands. -/
structure Alongside (c : Cursor) (n : Network) (s : Simulation)
    (m : Accumulator.Machine) : Prop where
  network : s.scanner.network = n
  elements : n.elements = laidElements (c.laids (program m.lines))
  carries : Carries n c.carrier (c.laids (program m.lines))
  store : s.context.store = m.store
  clock : s.context.clock = m.clock
  agree : Agree s.context.states c m.lines
  consistent : Consistent n s.context.states

variable {c : Cursor} {n : Network} {s : Simulation} {m : Accumulator.Machine}

private theorem agree_nil (c : Cursor) (p : Program) :
    Agree [] c (p.map fun i => ⟨i, none⟩) := by
  induction p generalizing c with
  | nil => trivial
  | cons i rest ih =>
    simp only [List.map_cons, Agree]
    split
    · exact ⟨fun _ => rfl, ih _⟩
    · exact ih c

private theorem program_start (p : Program) : program (p.map fun i => ⟨i, none⟩) = p := by
  simp [program, Function.comp_def]

private theorem Alongside.ran (h : Alongside c n s m) (coherent : n.Coherent)
    (acyclic : ∀ id, ¬ ReachesCycle n id) (start : c.carrier = none) (now : Number) :
    Ran c m.lines (Accumulator.scan now m.lines none m.store) { states := s.context.states }
      (scanElements ⟨n, now, s.context.memoize⟩ n.elements
        ⟨s.context.store, { states := s.context.states }⟩) := by
  have carries := h.carries
  rw [h.elements, h.store]
  refine @Ready.scan ⟨n, now, s.context.memoize⟩ c none m.store _ _ coherent acyclic m.lines
    ⟨carries, h.consistent, h.consistent, ?_, h.agree, fun _ _ => ⟨rfl, rfl⟩⟩
  rw [start]
  exact .empty _

private theorem Alongside.write (h : Alongside c n s m) (name value : Value) :
    Alongside c n (s.after (.write name value)) (m.after (.write name value)) := by
  have store : orStay s.context.store (s.context.store.write name value) =
      (m.after (.write name value)).store := by
    rw [h.store]
    rfl
  rw [Simulation.after_write]
  exact ⟨h.network, h.elements, h.carries, store, h.clock, h.agree, h.consistent⟩

private theorem Alongside.advance (h : Alongside c n s m) (span : Number) :
    Alongside c n (s.after (.advance span)) (m.after (.advance span)) :=
  ⟨h.network, h.elements, h.carries, h.store, by simp [Simulation.after, Accumulator.Machine.after,
    h.clock], h.agree, h.consistent⟩

private theorem Alongside.cycle (h : Alongside c n s m) (coherent : n.Coherent)
    (acyclic : ∀ id, ¬ ReachesCycle n id) (start : c.carrier = none) :
    Alongside c n s.cycle.state m.cycle ∧
      ∀ now clock, s.context.clock.read = .ok (now, clock) → s.cycle.result = .ok () := by
  rcases hread : s.context.clock.read with fault | ⟨now, clock⟩
  · have hm : m.cycle = m := by simp [Accumulator.Machine.cycle, ← h.clock, hread]
    rw [Simulation.cycle_of_read_error hread, hm]
    exact ⟨h, fun now clock hok => by cases hok⟩
  · obtain ⟨rfl⟩ := h.network
    have ran := h.ran coherent acyclic start now
    have sound := @Sound.scanElements ⟨s.scanner.network, now, s.context.memoize⟩ coherent
      s.scanner.network.elements ⟨s.context.store, { states := s.context.states }⟩
      ⟨h.consistent, keptAcyclic_nil _⟩
    rcases hscan : scanElements ⟨s.scanner.network, now, s.context.memoize⟩
      s.scanner.network.elements ⟨s.context.store, { states := s.context.states }⟩ with ⟨o, p⟩
    rw [hscan] at ran sound
    obtain ⟨rfl⟩ : o = none := ran.error
    have hm : m.cycle = ⟨(Accumulator.scan now m.lines none m.store).1,
        (Accumulator.scan now m.lines none m.store).2, clock⟩ := by
      simp [Accumulator.Machine.cycle, ← h.clock, hread]
    have hprogram : program (Accumulator.scan now m.lines none m.store).1 = program m.lines :=
      Accumulator.program_scan now m.lines none m.store
    rw [Simulation.cycle_of_read hread hscan, hm]
    refine ⟨⟨rfl, ?_, ?_, ran.store, rfl, ran.agree, sound.consistent⟩, fun _ _ _ => rfl⟩
    · rw [hprogram]
      exact h.elements
    · rw [hprogram]
      exact h.carries

private theorem Alongside.after (h : Alongside c n s m) (coherent : n.Coherent)
    (acyclic : ∀ id, ¬ ReachesCycle n id) (start : c.carrier = none) (event : Event) :
    Alongside c n (s.after event) (m.after event) := by
  cases event with
  | write name value => exact h.write name value
  | advance span => exact h.advance span
  | cycle => exact (h.cycle coherent acyclic start).1

/-- What a run preserves. -/
private theorem Alongside.run (h : Alongside c n s m) (coherent : n.Coherent)
    (acyclic : ∀ id, ¬ ReachesCycle n id) (start : c.carrier = none) (events : List Event) :
    Alongside c n (events.foldl Simulation.after s)
      (events.foldl Accumulator.Machine.after m) := by
  induction events generalizing s m with
  | nil => exact h
  | cons event rest ih => exact ih (h.after coherent acyclic start event)

/-- Building is correct. A program always makes a network; and in every run of that network from reset
states, each scan for which the clock can be read ends without an error, and the variables are always
those of the accumulator machine that executes the program once in a scan. -/
theorem Program.build_correct (p : Program) (supply : Supply) :
    ∃ n next, p.build supply = (.ok n, next) ∧ ∀ (context : Context) (events : List Event),
      let s := events.foldl Simulation.after (Simulation.start context n).reset
      let m := events.foldl Accumulator.Machine.after
        (Accumulator.Machine.start p context.store context.clock)
      s.context.store = m.store ∧
        ∀ now clock, s.context.clock.read = .ok (now, clock) → s.cycle.result = .ok () := by
  obtain ⟨id, next, hbuild⟩ := p.build_eq supply
  refine ⟨_, next, hbuild, fun context events => ?_⟩
  have coherent := p.coherent_laids supply id
  have acyclic := p.not_reachesCycle_laids supply id
  have alongside : Alongside { supply := supply }
      ⟨id, laidElements (p.laids supply), laidWires (p.laids supply)⟩
      (Simulation.start context
        ⟨id, laidElements (p.laids supply), laidWires (p.laids supply)⟩).reset
      (Accumulator.Machine.start p context.store context.clock) := by
    refine ⟨rfl, ?_, ?_, rfl, rfl, agree_nil _ p, consistent_nil _⟩
    · rw [Accumulator.Machine.start, program_start]
      rfl
    · rw [Accumulator.Machine.start, program_start]
      exact carries_laids p supply id
  have run := alongside.run coherent acyclic rfl events
  exact ⟨run.store, (run.cycle coherent acyclic rfl).2⟩

/-- A counter that is to count one edge is on after the first scan with its input on. -/
example :
    (((Accumulator.Machine.start [⟨.ld, some "X1", none⟩, ⟨.ctu, some "1", none⟩,
      ⟨.st, some "Y1", none⟩] Store.standard {}).after (.write (.text "X1") (.bool true))).after
        .cycle).store.value? "Y1" = some (.truth true) := by
  rfl

end RungLogic
