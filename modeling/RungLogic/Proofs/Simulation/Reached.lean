import RungLogic.Proofs.Scan.CycleDetection
import RungLogic.Simulation

/-!
Simulations that are reached by scans and evaluations. They never keep a result in front of a cycle,
so each evaluation and each scan detects cycles exactly.
-/

set_option autoImplicit false
set_option relaxedAutoImplicit false

namespace RungLogic.Simulation

open Scan

def held (s : Simulation) : Memory :=
  { states := s.context.states, kept := s.scanner.kept, outputs := s.scanner.outputs }

/-- The simulations that earlier scans and evaluations of a network lead to, when whatever happens to
the context in between leaves consistent states. -/
inductive Reached (n : Network) : Simulation → Prop
  | start (context : Context) : Consistent n context.states → Reached n (start context n)
  | cycle {s : Simulation} : Reached n s → Reached n s.cycle.state
  | evaluate {s : Simulation} (id : String) : Reached n s → Reached n (s.evaluate id).state
  | change {s : Simulation} (context : Context) : Reached n s → Consistent n context.states →
      Reached n ⟨context, s.scanner⟩
  | reset {s : Simulation} : Reached n s → Reached n s.reset

theorem cycle_of_read_error {s : Simulation} {fault : Error}
    (hread : s.context.clock.read = .error fault) :
    s.cycle = { result := .error fault, state := s } := by
  simp only [cycle, hread]

theorem cycle_of_read {s : Simulation} {now : Number} {clock : Clock} {fault : Option Error}
    {p : Progress} (hread : s.context.clock.read = .ok (now, clock)) :
    scanElements ⟨s.scanner.network, now, s.context.memoize⟩ s.scanner.network.elements
      ⟨s.context.store, { states := s.context.states }⟩ = (fault, p) →
    s.cycle =
      { result := match fault with
          | some fault => .error fault
          | none => .ok ()
        state :=
          { context := { s.context with
              store := p.store, states := p.memory.states, clock := clock
              recorded := if fault.isNone then p.memory.outputs else s.context.recorded }
            scanner := { s.scanner with
              now := now, kept := p.memory.kept, outputs := p.memory.outputs
              live := fault.isNone } }
        notices := p.memory.notices } := by
  intro hscan
  cases fault <;> simp only [cycle, hread, hscan]

theorem cycle_completed {s : Simulation} (coherent : s.scanner.network.Coherent)
    (acyclic : ∀ id, ¬ ReachesCycle s.scanner.network id)
    (consistent : Consistent s.scanner.network s.context.states) {now : Number} {clock : Clock}
    (hread : s.context.clock.read = .ok (now, clock)) : s.cycle.result = .ok () := by
  have ends := scanEnd_scanElements ⟨s.scanner.network, now, s.context.memoize⟩ coherent
    s.scanner.network.elements ⟨s.context.store, { states := s.context.states }⟩
    ⟨consistent, keptAcyclic_nil _⟩
  rcases hscan : scanElements ⟨s.scanner.network, now, s.context.memoize⟩
    s.scanner.network.elements ⟨s.context.store, { states := s.context.states }⟩ with ⟨fault, p⟩
  rw [hscan] at ends
  rw [cycle_of_read hread hscan]
  cases ends with
  | done => rfl
  | cycle path before c after source r loop split drives cycle => exact (acyclic _ cycle).elim

/-- Without cycles, no scan reports one, not even with states that do not fit the elements. -/
theorem cycle_ne_error_cycle {s : Simulation} (coherent : s.scanner.network.Coherent)
    (acyclic : ∀ id, ¬ ReachesCycle s.scanner.network id) (path : List String) :
    s.cycle.result ≠ .error (.cycle path) := by
  intro failed
  rcases hread : s.context.clock.read with fault | ⟨now, clock⟩
  · rw [cycle_of_read_error hread] at failed
    obtain rfl := Except.error.inj failed
    rw [Clock.read, Clock.advance] at hread
    split at hread <;> cases hread
  · rcases hscan : scanElements ⟨s.scanner.network, now, s.context.memoize⟩
      s.scanner.network.elements ⟨s.context.store, { states := s.context.states }⟩
      with ⟨_ | fault, q⟩
    · rw [cycle_of_read hread hscan] at failed
      cases failed
    · rw [cycle_of_read hread hscan] at failed
      obtain rfl := Except.error.inj failed
      obtain ⟨id, reached⟩ := exists_reachesCycle_of_scan coherent hscan
      exact acyclic id reached

private theorem evaluate_of_mem {s : Simulation} (coherent : s.scanner.network.Coherent) {e : Element}
    (he : e ∈ s.scanner.network.elements) :
    s.evaluate e.id =
      { result := (Scan.evaluate s.surroundings e s.held).1
        state := s.absorb (Scan.evaluate s.surroundings e s.held).2
        notices := (Scan.evaluate s.surroundings e s.held).2.notices } := by
  simp only [evaluate, coherent.element?_of_mem he]
  rfl

private theorem evaluate_of_not_element {s : Simulation} {id : String}
    (h : s.scanner.network.element? id = none) :
    (s.evaluate id).state = s := by
  simp only [evaluate, h]

private theorem Reached.sound {n : Network} (coherent : n.Coherent) {s : Simulation} (h : Reached n s) :
    s.scanner.network = n ∧ Sound n s.held := by
  induction h with
  | start context consistent => exact ⟨rfl, consistent, keptAcyclic_nil n⟩
  | @cycle s _ ih =>
    obtain ⟨hn, sound⟩ := ih
    rcases hread : s.context.clock.read with fault | ⟨now, clock⟩
    · rw [cycle_of_read_error hread]
      exact ⟨hn, sound⟩
    · rcases hscan : scanElements ⟨s.scanner.network, now, s.context.memoize⟩
        s.scanner.network.elements ⟨s.context.store, { states := s.context.states }⟩ with ⟨fault, p⟩
      have scanned := @Sound.scanElements ⟨s.scanner.network, now, s.context.memoize⟩
        (hn ▸ coherent) s.scanner.network.elements
        ⟨s.context.store, { states := s.context.states }⟩
        ⟨hn ▸ sound.consistent, keptAcyclic_nil _⟩
      rw [hscan] at scanned
      rw [cycle_of_read hread hscan]
      exact ⟨hn, hn ▸ scanned.consistent, hn ▸ scanned.kept⟩
  | @evaluate s id _ ih =>
    obtain ⟨rfl, sound⟩ := ih
    rcases found : s.scanner.network.element? id with _ | e
    · rw [evaluate_of_not_element found]
      exact ⟨rfl, sound⟩
    · have he := Network.mem_of_element? found
      have after := Sound.evaluate (w := s.surroundings) coherent he sound
      rw [← Network.id_of_element? found, evaluate_of_mem coherent he]
      exact ⟨rfl, after.consistent, after.kept⟩
  | change context _ consistent ih => exact ⟨ih.1, consistent, ih.2.kept⟩
  | reset _ ih => exact ⟨ih.1, consistent_nil n, ih.2.kept⟩

/-- Cycle detection is exact. In every simulation of a valid network that is reached, an evaluation
halts within the cost of its first frame; it reports a cycle exactly when one is reached, and what
it reports is a loop. A scan reports a cycle exactly when one is reached from the wire of a coil
that takes part; the variables are then as the coils before the first such coil have left them, and
the recorded outputs are as before. -/
theorem cycle_detection_exact {n : Network} (valid : n.Valid) {s : Simulation} (h : Reached n s) :
    (∀ e ∈ n.elements,
      (∃ k ≤ Machine.cost n [Frame.fresh n e], ∃ result memory,
        Machine.Halts s.surroundings k ⟨Frame.fresh n e, [], s.held⟩ result memory ∧
          (s.held.keptSignal? s.surroundings e = none → (s.evaluate e.id).result = result)) ∧
      ((∃ path, (s.evaluate e.id).result = .error (.cycle path)) ↔ ReachesCycle n e.id) ∧
      ∀ fault, (s.evaluate e.id).result = .error fault →
        ∃ path, fault = .cycle path ∧ IsLoop n path) ∧
    ∀ now clock, s.context.clock.read = .ok (now, clock) →
      ((∃ path, s.cycle.result = .error (.cycle path)) ↔
        ∃ c ∈ n.elements, ∃ source, Drives n source c ∧ ReachesCycle n source.element) ∧
      ∀ fault, s.cycle.result = .error fault →
        (∃ path, fault = .cycle path ∧ IsLoop n path) ∧
        s.cycle.state.context.recorded = s.context.recorded ∧
        ∃ before c after source r,
          n.elements = before ++ c :: after ∧ Drives n source c ∧ ReachesCycle n source.element ∧
          (∀ d ∈ before, ∀ source, Drives n source d → ¬ ReachesCycle n source.element) ∧
          scanElements ⟨n, now, s.context.memoize⟩ before
            ⟨s.context.store, { states := s.context.states }⟩ = (none, r) ∧
          s.cycle.state.context.store = r.store := by
  have coherent := valid.coherent
  obtain ⟨rfl, sound⟩ := h.sound coherent
  constructor
  · intro e he
    have heval := evaluate_of_mem coherent he
    obtain ⟨k, hk, halts⟩ :=
      Machine.exists_halts s.surroundings ⟨Frame.fresh s.scanner.network e, [], s.held⟩
    obtain ⟨iff, loop⟩ :=
      evaluate_error_iff (w := s.surroundings) coherent he sound.consistent sound.kept
    rw [heval]
    refine ⟨⟨k, hk, _, _, halts, fun hkept => ?_⟩, iff, loop⟩
    simp only [Scan.evaluate, hkept]
    rfl
  · intro now clock hread
    have ends := scanEnd_scanElements ⟨s.scanner.network, now, s.context.memoize⟩ coherent
      s.scanner.network.elements ⟨s.context.store, { states := s.context.states }⟩
      ⟨sound.consistent, keptAcyclic_nil _⟩
    rcases hscan : scanElements ⟨s.scanner.network, now, s.context.memoize⟩
      s.scanner.network.elements ⟨s.context.store, { states := s.context.states }⟩ with ⟨o, q⟩
    rw [hscan] at ends
    rw [cycle_of_read hread hscan]
    cases ends with
    | done quiet =>
      refine ⟨⟨?_, ?_⟩, fun _ h => by cases h⟩
      · rintro ⟨path, h⟩
        cases h
      · rintro ⟨c, hc, source, drives, cycle⟩
        exact (quiet c hc source drives cycle).elim
    | cycle path before c after source r loop split drives cycle first hbefore hstore =>
      refine ⟨⟨fun _ => ⟨c, ?_, source, drives, cycle⟩, fun _ => ⟨path, rfl⟩⟩, ?_⟩
      · have hsplit : s.scanner.network.elements = before ++ c :: after := split
        simp only [hsplit, List.mem_append, List.mem_cons, true_or, or_true]
      · intro fault hfault
        cases hfault
        exact ⟨⟨path, rfl, loop⟩, rfl, before, c, after, source, r, split, drives, cycle, first,
          hbefore, hstore⟩

/-- With the lamp's timer kept, the alarm still finds the loop, and so does the next scan, while the
lamp does not. -/
theorem alarm_detects_loop :
    let s := ((start { memoize := true } lampBesideLoop).evaluate "lamp").state
    lampBesideLoop.Valid ∧ Reached lampBesideLoop s ∧
      (∃ path, (s.evaluate "alarm").result = .error (.cycle path) ∧
        IsLoop lampBesideLoop path) ∧
      (∀ path, (s.evaluate "lamp").result ≠ .error (.cycle path)) ∧
      ∃ path, s.cycle.result = .error (.cycle path) ∧ IsLoop lampBesideLoop path ∧
        s.cycle.state.context.recorded = s.context.recorded := by
  intro s
  have reached : Reached lampBesideLoop s :=
    .evaluate "lamp" (.start { memoize := true } (consistent_nil lampBesideLoop))
  have hclock : s.context.clock.read = .ok (.int 0, {}) := rfl
  obtain ⟨evaluations, scan⟩ := cycle_detection_exact valid_lampBesideLoop reached
  obtain ⟨_, alarm, shown⟩ :=
    evaluations ⟨"alarm", .coil, {}, [("variable", .text "Y2")]⟩ (by simp [lampBesideLoop])
  obtain ⟨_, lamp, _⟩ :=
    evaluations ⟨"lamp", .coil, {}, [("variable", .text "Y1")]⟩ (by simp [lampBesideLoop])
  obtain ⟨raises, failed⟩ := scan _ _ hclock
  have loop : Reads lampBesideLoop "loop" "loop" :=
    ⟨⟨"loop", .not, {}, []⟩, "in", ⟨"loop", "out"⟩, rfl, by decide, rfl, rfl⟩
  have cycle : ReachesCycle lampBesideLoop "loop" := ⟨"loop", .refl, .single loop⟩
  have link : Reads lampBesideLoop "alarm" "loop" :=
    ⟨⟨"alarm", .coil, {}, [("variable", .text "Y2")]⟩, "in", ⟨"loop", "out"⟩, rfl, by decide, rfl,
      rfl⟩
  refine ⟨valid_lampBesideLoop, reached, ?_, fun path h => ?_, ?_⟩
  · obtain ⟨path, h⟩ := alarm.mpr (reachesCycle_iff.mpr ⟨"loop", link, cycle⟩)
    obtain ⟨_, same, isLoop⟩ := shown _ h
    cases same
    exact ⟨path, h, isLoop⟩
  · exact not_reachesCycle_lampBesideLoop (by decide) (lamp.mp ⟨path, h⟩)
  · obtain ⟨path, h⟩ := raises.mpr ⟨⟨"alarm", .coil, {}, [("variable", .text "Y2")]⟩,
      by simp [lampBesideLoop], ⟨"loop", "out"⟩, ⟨rfl, rfl, "Y2", rfl, by decide⟩, cycle⟩
    obtain ⟨⟨_, same, isLoop⟩, recorded, -⟩ := failed _ h
    cases same
    exact ⟨path, h, isLoop, recorded⟩

end RungLogic.Simulation
