import RungLogic.Proofs.Simulation.Events
import RungLogic.Proofs.Simulation.Reached

/-!
Safe scans. While variables are valid and states consistent, a scan of a valid network either comes to
its end or reports a cycle; nothing else can stop it. Either way the variables are valid and the states
consistent afterwards, so this holds all along every run.
-/

set_option autoImplicit false
set_option relaxedAutoImplicit false

namespace RungLogic

open Scan

private theorem Store.write_text_refused {s : Store} {target : String} {b : Bool} {fault : Error}
    (h : s.write (.text target) (.bool b) = .error fault) :
    ∃ faults, fault = .invalid .variable faults := by
  have hfind : s.find (.text target) = .ok (Table.value? target s) := rfl
  unfold Store.write at h
  rw [hfind] at h
  rcases hold : Table.value? target s with _ | old
  · simp only [hold, bind, Except.bind, Store.declare, Variable.make] at h
    split at h
    · cases h
    · cases h
      exact ⟨_, rfl⟩
  · simp only [hold, bind, Except.bind] at h
    split at h
    · cases h
    · cases h
      exact ⟨_, rfl⟩

private theorem Scan.valid_writeCoil {e : Element} {target : String} {b : Bool} {p : Progress}
    (h : p.store.Valid) : (writeCoil e target b p).store.Valid := by
  unfold writeCoil
  split
  · rename_i store written
    exact h.write written
  · exact h

private theorem Scan.valid_scanElements (setting : Setting) (es : List Element) {p : Progress}
    (h : p.store.Valid) : (scanElements setting es p).2.store.Valid := by
  fun_induction scanElements setting es p with
  | case1 => exact h
  | case2 p e rest _ ih => exact ih h
  | case3 => exact h
  | case4 p e rest source target _ s memory _ ih => exact ih (valid_writeCoil h)

/-- What a scan of a network does to valid variables and consistent states, for any reading of the
clock: the only error there can be is a cycle, and nothing is spoiled. -/
private theorem Scan.scan_spec {n : Network} (coherent : n.Coherent) (now : Number) (memoize : Bool)
    {store : Store} (hstore : store.Valid) {states : Table ElementState}
    (consistent : Consistent n states) :
    let ended := scanElements ⟨n, now, memoize⟩ n.elements ⟨store, { states := states }⟩
    (ended.1 = none ∨ ∃ path, ended.1 = some (.cycle path)) ∧
      ended.2.store.Valid ∧ Consistent n ended.2.memory.states := by
  intro ended
  have sound : Sound n ({ states := states } : Memory) := ⟨consistent, keptAcyclic_nil n⟩
  refine ⟨?_, valid_scanElements _ _ hstore, ?_⟩
  · have hend := scanEnd_scanElements ⟨n, now, memoize⟩ coherent n.elements
      ⟨store, { states := states }⟩ sound
    change ScanEnd _ _ _ ended.1 ended.2 at hend
    cases hfault : ended.1 with
    | none => exact .inl rfl
    | some fault =>
      rw [hfault] at hend
      cases hend with
      | cycle path => exact .inr ⟨path, rfl⟩
  · let setting : Setting := ⟨n, now, memoize⟩
    have sound' : Sound setting.network ended.2.memory := sound.scanElements coherent n.elements
    exact sound'.consistent

namespace Simulation

/-- A simulation of a network whose variables are valid and whose states are consistent. -/
structure Intact (n : Network) (s : Simulation) : Prop where
  network : s.scanner.network = n
  store : s.context.store.Valid
  states : Consistent n s.context.states

variable {n : Network} {s : Simulation}

theorem Intact.cycle (h : Intact n s) (coherent : n.Coherent) : Intact n s.cycle.state ∧
    ∀ now clock, s.context.clock.read = .ok (now, clock) →
      s.cycle.result = .ok () ∨ ∃ path, s.cycle.result = .error (.cycle path) := by
  obtain ⟨rfl, store, states⟩ := h
  rcases hread : s.context.clock.read with fault | ⟨now, clock⟩
  · rw [cycle_of_read_error hread]
    exact ⟨⟨rfl, store, states⟩, fun _ _ hok => by cases hok⟩
  · have spec := scan_spec coherent now s.context.memoize store states
    rcases hscan : scanElements ⟨s.scanner.network, now, s.context.memoize⟩
      s.scanner.network.elements ⟨s.context.store, { states := s.context.states }⟩ with ⟨fault, p⟩
    rw [hscan] at spec
    obtain ⟨hfault, store', states'⟩ := spec
    rw [cycle_of_read hread hscan]
    refine ⟨⟨rfl, store', states'⟩, fun _ _ _ => ?_⟩
    rcases hfault with hnone | ⟨path, hcycle⟩
    · obtain rfl : fault = none := hnone
      exact .inl rfl
    · obtain rfl : fault = some (.cycle path) := hcycle
      exact .inr ⟨path, rfl⟩

theorem Intact.after (h : Intact n s) (coherent : n.Coherent) (event : Event) :
    Intact n (s.after event) := by
  cases event with
  | write name value =>
    rw [after_write]
    refine ⟨h.network, ?_, h.states⟩
    rcases hwrite : s.context.store.write name value with fault | store
    · exact h.store
    · exact h.store.write hwrite
  | advance span => exact ⟨h.network, h.store, h.states⟩
  | cycle => exact (h.cycle coherent).1

private theorem Intact.run (h : Intact n s) (coherent : n.Coherent) (events : List Event) :
    Intact n (events.foldl Simulation.after s) := by
  induction events generalizing s with
  | nil => exact h
  | cons event rest ih => exact ih (h.after coherent event)

/-- Scans are safe. Over a valid network, with valid variables and consistent states, a scan at any
reading of the clock comes to its end or reports a cycle, leaves valid variables and consistent states,
and has the variables refuse a coil for faults of the variable only. So in every run from reset
states, whatever is written from outside, the variables stay valid and the states consistent, and the
next scan comes to its end or reports a cycle. -/
theorem scan_safe {n : Network} (valid : n.Valid) :
    (∀ (now : Number) (memoize : Bool) (store : Store) (states : Table ElementState),
      store.Valid → Consistent n states →
      let ended := scanElements ⟨n, now, memoize⟩ n.elements ⟨store, { states := states }⟩
      (ended.1 = none ∨ ∃ path, ended.1 = some (.cycle path)) ∧
        ended.2.store.Valid ∧ Consistent n ended.2.memory.states) ∧
    (∀ (store : Store) (target : String) (b : Bool) (fault : Error),
      store.write (.text target) (.bool b) = .error fault →
        ∃ faults, fault = .invalid .variable faults) ∧
    ∀ (context : Context), context.store.Valid → ∀ events : List Event,
      let s := events.foldl Simulation.after (start context n).reset
      Intact n s ∧ ∀ now clock, s.context.clock.read = .ok (now, clock) →
        s.cycle.result = .ok () ∨ ∃ path, s.cycle.result = .error (.cycle path) := by
  refine ⟨?_, ?_, ?_⟩
  · intro now memoize store states hstore consistent
    exact scan_spec valid.coherent now memoize hstore consistent
  · intro store target b fault h
    exact Store.write_text_refused h
  · intro context hstore events s
    have begun : Intact n (start context n).reset := ⟨rfl, hstore, consistent_nil n⟩
    have intact : Intact n s := begun.run valid.coherent events
    exact ⟨intact, (intact.cycle valid.coherent).2⟩

/-- The lamp is scanned while its timer runs; a coil cannot write a variable of integers. -/
theorem lamp_scans_safely :
    let states : Table ElementState := [("delay", .timer { running := true, start := .int 500 })]
    let ended := scanElements ⟨lampBesideLoop, .int 2500, true⟩ lampBesideLoop.elements
      ⟨Store.standard, { states := states }⟩
    let events : List Event := [.write (.text "X1") (.bool true), .cycle, .advance (.int 3000), .cycle]
    lampBesideLoop.Valid ∧ Store.standard.Valid ∧ Consistent lampBesideLoop states ∧
      (ended.1 = none ∨ ∃ path, ended.1 = some (.cycle path)) ∧ ended.2.store.Valid ∧
      (∃ faults, Store.standard.write (.text "COUNT") (.bool true) =
        .error (.invalid .variable faults)) ∧
      Intact lampBesideLoop (events.foldl Simulation.after (start {} lampBesideLoop).reset) := by
  intro states ended events
  have hstore : Store.standard.Valid := by decide
  have consistent : Consistent lampBesideLoop states := by decide +zetaReduce
  have hrefused : Store.standard.write (.text "COUNT") (.bool true) =
      .error (.invalid .variable [.unfitValue .int (.text "COUNT") (.bool true)]) := by rfl
  obtain ⟨scans, refused, runs⟩ := scan_safe valid_lampBesideLoop
  obtain ⟨hfault, store, -⟩ := scans (.int 2500) true Store.standard states hstore consistent
  obtain ⟨faults, hfaults⟩ := refused Store.standard "COUNT" true _ hrefused
  exact ⟨valid_lampBesideLoop, hstore, consistent, hfault, store, ⟨faults, hfaults ▸ hrefused⟩,
    (runs {} hstore events).1⟩

end Simulation

end RungLogic
