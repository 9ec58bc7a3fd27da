import RungLogic.Proofs.Scan.Twins
import RungLogic.Proofs.Simulation.Events
import RungLogic.Proofs.Simulation.Reached

/-!
Runs of twins. When every part of a network without cycles has its twin in another one, simulations
of both go through a run in step: the variables are always equal, and a scan of one ends as that of
the other does.
-/

set_option autoImplicit false
set_option relaxedAutoImplicit false

namespace RungLogic

namespace Scan

variable {rename : String → String} {n n' : Network} {e d : Element}

private theorem coilLine?_twin (twins : n.Twins rename n') (coherent : n.Coherent)
    (coherent' : n'.Coherent) (he : e ∈ n.elements) (twin : e.Twin d) (hid : d.id = rename e.id) :
    coilLine? n' d = (coilLine? n e).map fun line => (line.1.renamed rename, line.2) := by
  rw [coilLine?, coilLine?, twin.kind, hid, twins.feed? coherent coherent' he]
  by_cases hcoil : e.kind.isCoil = true
  · rw [if_pos hcoil, if_pos hcoil, twin.reference (.inr hcoil)]
    rcases feed? n e.id "in" with _ | source
    · rfl
    · rcases e.reference? with _ | target
      · rfl
      · by_cases hempty : target = ""
        · simp [hempty]
        · simp [hempty]
  · rw [if_neg hcoil, if_neg hcoil]
    rfl

/-- Scans of two networks of twins that have come to the same point. -/
structure Abreast (rename : String → String) (n n' : Network) (p p' : Progress) : Prop where
  store : p'.store = p.store
  memory : Paired rename n n' p.memory p'.memory

private theorem Abreast.writeCoil {p p' : Progress} (h : Abreast rename n n' p p') (target : String)
    (b : Bool) : Abreast rename n n' (writeCoil e target b p) (writeCoil d target b p') := by
  refine ⟨?_, ⟨?_, ?_⟩, ?_, ?_⟩
  · rw [store_writeCoil, store_writeCoil, h.store]
  · rw [states_writeCoil, states_writeCoil]
    exact h.memory.states
  · rw [kept_writeCoil, kept_writeCoil]
    exact h.memory.kept
  · rw [states_writeCoil]
    exact h.memory.left
  · rw [states_writeCoil]
    exact h.memory.right

/-- Both scans end without an error, and at the same point again. The induction is on the elements
that are still to be scanned, with their twins. -/
private theorem Abreast.scanElements {setting setting' : Setting} (now : setting'.now = setting.now)
    (memoize : setting'.memoize = setting.memoize)
    (twins : setting.network.Twins rename setting'.network) (coherent : setting.network.Coherent)
    (coherent' : setting'.network.Coherent) (acyclic : ∀ id, ¬ ReachesCycle setting'.network id)
    {es ds : List Element} (pairs : List.Forall₂ (fun e d => e.Twin d ∧ d.id = rename e.id) es ds)
    (hes : ∀ e ∈ es, e ∈ setting.network.elements) {p p' : Progress}
    (h : Abreast rename setting.network setting'.network p p') :
    ∃ q q', scanElements setting es p = (none, q) ∧ scanElements setting' ds p' = (none, q') ∧
      Abreast rename setting.network setting'.network q q' := by
  induction pairs generalizing p p' with
  | nil => exact ⟨p, p', rfl, rfl, h⟩
  | @cons e d es ds head _ ih =>
    obtain ⟨twin, hid⟩ := head
    have he := hes e List.mem_cons_self
    have rest : ∀ e ∈ es, e ∈ setting.network.elements :=
      fun e he => hes e (List.mem_cons_of_mem _ he)
    have line := coilLine?_twin twins coherent coherent' he twin hid
    rcases hline : coilLine? setting.network e with _ | ⟨source, target⟩
    · rw [hline] at line
      simp only [Scan.scanElements, hline, line, Option.map_none]
      exact ih rest h
    · rw [hline, Option.map_some] at line
      obtain ⟨-, hfeed, -, -⟩ := coilLine?_eq_some_iff.mp hline
      obtain ⟨feeder, -, found, -, -⟩ := exists_source coherent hfeed
      have agree : (setting.over p.store).Agree (setting'.over p'.store) := ⟨h.store, now, memoize⟩
      obtain ⟨s, m₁, m₁', hread, hread', paired⟩ := readPort_twin agree twins coherent coherent'
        acyclic found h.memory
      have value : coilValue d s = coilValue e s := by rw [coilValue, coilValue, twin.kind]
      simp only [Scan.scanElements, hline, line, hread, hread', value]
      have read : Abreast rename setting.network setting'.network ⟨p.store, m₁⟩ ⟨p'.store, m₁'⟩ :=
        ⟨h.store, paired⟩
      exact ih rest (read.writeCoil target (coilValue e s))

end Scan

namespace Simulation

open Scan

/-- Simulations of two networks of twins that stand at the same point. -/
structure Aligned (rename : String → String) (n n' : Network) (s s' : Simulation) : Prop where
  left : s.scanner.network = n
  right : s'.scanner.network = n'
  store : s'.context.store = s.context.store
  clock : s'.context.clock = s.context.clock
  memoize : s'.context.memoize = s.context.memoize
  states : Paired rename n n' { states := s.context.states } { states := s'.context.states }

variable {rename : String → String} {n n' : Network} {s s' : Simulation}

theorem Aligned.cycle (h : Aligned rename n n' s s') (twins : n.Twins rename n')
    (coherent : n.Coherent) (coherent' : n'.Coherent) (acyclic : ∀ id, ¬ ReachesCycle n' id) :
    Aligned rename n n' s.cycle.state s'.cycle.state ∧ s'.cycle.result = s.cycle.result ∧
      ∀ now clock, s.context.clock.read = .ok (now, clock) → s.cycle.result = .ok () := by
  obtain ⟨rfl⟩ := h.left
  obtain ⟨rfl⟩ := h.right
  rcases hread : s.context.clock.read with fault | ⟨now, clock⟩
  · have hread' : s'.context.clock.read = .error fault := by rw [h.clock, hread]
    rw [cycle_of_read_error hread, cycle_of_read_error hread']
    exact ⟨h, rfl, fun _ _ hok => by cases hok⟩
  · have hread' : s'.context.clock.read = .ok (now, clock) := by rw [h.clock, hread]
    have abreast : Abreast rename s.scanner.network s'.scanner.network
        ⟨s.context.store, { states := s.context.states }⟩
        ⟨s'.context.store, { states := s'.context.states }⟩ := ⟨h.store, h.states⟩
    obtain ⟨q, q', hscan, hscan', reached⟩ := @Abreast.scanElements rename
      ⟨s.scanner.network, now, s.context.memoize⟩ ⟨s'.scanner.network, now, s'.context.memoize⟩
      rfl h.memoize twins coherent coherent' acyclic _ _ twins.elements (fun _ he => he) _ _ abreast
    rw [cycle_of_read hread hscan, cycle_of_read hread' hscan']
    refine ⟨⟨rfl, rfl, reached.store, rfl, h.memoize, ?_⟩, rfl, fun _ _ _ => rfl⟩
    exact ⟨⟨reached.memory.states, fun _ _ => rfl⟩, reached.memory.left, reached.memory.right⟩

private theorem Aligned.after (h : Aligned rename n n' s s') (twins : n.Twins rename n')
    (coherent : n.Coherent) (coherent' : n'.Coherent) (acyclic : ∀ id, ¬ ReachesCycle n' id)
    (event : Event) : Aligned rename n n' (s.after event) (s'.after event) := by
  cases event with
  | write name value =>
    rw [after_write, after_write]
    refine ⟨h.left, h.right, ?_, h.clock, h.memoize, h.states⟩
    show orStay s'.context.store (s'.context.store.write name value) = _
    rw [h.store]
  | advance span =>
    refine ⟨h.left, h.right, h.store, ?_, h.memoize, h.states⟩
    show orStay s'.context.clock (s'.context.clock.advance span) = _
    rw [h.clock]
    rfl
  | cycle => exact (h.cycle twins coherent coherent' acyclic).1

/-- What a run preserves. -/
theorem Aligned.run (h : Aligned rename n n' s s') (twins : n.Twins rename n')
    (coherent : n.Coherent) (coherent' : n'.Coherent) (acyclic : ∀ id, ¬ ReachesCycle n' id)
    (events : List Event) :
    Aligned rename n n' (events.foldl Simulation.after s) (events.foldl Simulation.after s') := by
  induction events generalizing s s' with
  | nil => exact h
  | cons event rest ih => exact ih (h.after twins coherent coherent' acyclic event)

theorem aligned_start (context : Context) (n n' : Network) :
    Aligned rename n n' (start context n).reset (start context n').reset :=
  ⟨rfl, rfl, rfl, rfl, rfl, ⟨fun _ _ => rfl, fun _ _ => rfl⟩, consistent_nil n, consistent_nil n'⟩

end Simulation

end RungLogic
