import RungLogic.Proofs.Scan.Order
import RungLogic.Proofs.Simulation.Reached

/-!
Runs in any order. Simulations of a network with its elements in two orders, of which one keeps the
results of timers and counters and the other may not, go through a run in step: their variables are
always the same.
-/

set_option autoImplicit false
set_option relaxedAutoImplicit false

namespace RungLogic

open Network (Reordered)

namespace Simulation

open Scan

/-- A simulation of a network whose elements stand in some order, with states that are consistent. -/
structure Over (n : Network) (s : Simulation) : Prop where
  network : Reordered n s.scanner.network
  consistent : Consistent n s.context.states

/-- Simulations of a network with its elements in two orders that stand at the same point: the clocks
and the variables are the same, and so are the cores of the states. -/
structure InStep (n : Network) (s s' : Simulation) : Prop where
  left : Over n s
  right : Over n s'
  clock : s'.context.clock = s.context.clock
  store : ∀ name, s'.context.store.value? name = s.context.store.value? name
  states : ∀ e ∈ n.elements,
    (s'.context.states.value? e.id).map (ElementState.core e.kind) =
      (s.context.states.value? e.id).map (ElementState.core e.kind)

variable {n : Network} {s s' : Simulation}

/-- A scan from variables and states that agree with those of the ideal leaves what the ideal leaves.
-/
private theorem Over.scan (w : Surroundings) (begun : Table ElementState) {i : Int} (hnow : w.now = .int i)
    (orderless : Orderless w.network) (coherent : w.network.Coherent) (h : Over w.network s)
    (store : ∀ name, s.context.store.value? name = w.store.value? name)
    (states : ∀ e ∈ w.network.elements,
      (s.context.states.value? e.id).map (ElementState.core e.kind) =
        (begun.value? e.id).map (ElementState.core e.kind)) :
    ∃ q, scanElements ⟨s.scanner.network, w.now, s.context.memoize⟩ s.scanner.network.elements
        ⟨s.context.store, { states := s.context.states }⟩ = (none, q) ∧
      Scanned w begun s.scanner.network.elements (fun _ => False)
        ⟨s.context.store, { states := s.context.states }⟩ q ∧
      Consistent w.network q.memory.states := by
  let setting : Setting := ⟨s.scanner.network, w.now, s.context.memoize⟩
  let p : Progress := ⟨s.context.store, { states := s.context.states }⟩
  have network : Reordered w.network setting.network := h.network
  have midway : Midway w begun (fun _ => False) p.memory := by
    refine ⟨fun a b ha => ha.elim, fun e he hmet => hmet.elim, fun e he _ => states e he, ?_⟩
    intro e he t ht
    cases ht
  have sound : Sound setting.network p.memory :=
    ⟨(consistent_reordered network).mpr h.consistent, keptAcyclic_nil _⟩
  have coherent' : setting.network.Coherent := network.coherent coherent
  have nodup : setting.network.elements.Nodup := coherent'.nodup.of_map Element.id
  obtain ⟨q, hscan, scanned⟩ := midway.scanElements hnow orderless coherent network rfl sound
    (fun name _ => store name) nodup fun c hc => network.mem_iff.mp hc
  have sound' := sound.scanElements coherent' setting.network.elements
  rw [hscan] at sound'
  exact ⟨q, hscan, scanned, (consistent_reordered network).mp sound'.consistent⟩

private theorem InStep.cycle (h : InStep n s s') (orderless : Orderless n) (coherent : n.Coherent)
    (integer : ∀ now clock, s.context.clock.read = .ok (now, clock) → ∃ i, now = .int i) :
    InStep n s.cycle.state s'.cycle.state ∧
      ∀ now clock, s.context.clock.read = .ok (now, clock) →
        s.cycle.result = .ok () ∧ s'.cycle.result = .ok () := by
  rcases hread : s.context.clock.read with fault | ⟨now, clock⟩
  · have hread' : s'.context.clock.read = .error fault := by rw [h.clock, hread]
    rw [cycle_of_read_error hread, cycle_of_read_error hread']
    exact ⟨h, fun _ _ hok => by cases hok⟩
  · have hread' : s'.context.clock.read = .ok (now, clock) := by rw [h.clock, hread]
    obtain ⟨i, hnow⟩ := integer now clock hread
    let w : Surroundings := ⟨n, s.context.store, now, s.context.memoize⟩
    obtain ⟨q, hscan, scanned, consistent⟩ :=
      h.left.scan w s.context.states hnow orderless coherent (fun _ => rfl) (fun _ _ => rfl)
    obtain ⟨q', hscan', scanned', consistent'⟩ :=
      h.right.scan w s.context.states hnow orderless coherent h.store h.states
    have same : ∀ c, c ∈ s'.scanner.network.elements ↔ c ∈ s.scanner.network.elements := by
      intro c
      rw [h.right.network.mem_iff, h.left.network.mem_iff]
    obtain ⟨store, states⟩ := scanned.agree scanned' same h.store
    rw [cycle_of_read hread hscan, cycle_of_read hread' hscan']
    refine ⟨⟨?_, ?_, rfl, store, states⟩, fun _ _ _ => ⟨rfl, rfl⟩⟩
    · exact ⟨h.left.network, consistent⟩
    · exact ⟨h.right.network, consistent'⟩

private theorem InStep.write (h : InStep n s s') (name value : Value) :
    InStep n (s.after (.write name value)) (s'.after (.write name value)) := by
  rw [after_write, after_write]
  refine ⟨⟨h.left.network, h.left.consistent⟩, ⟨h.right.network, h.right.consistent⟩, h.clock, ?_,
    h.states⟩
  intro other
  simp only [Store.value?_write, h.store]

private theorem InStep.after (h : InStep n s s') (orderless : Orderless n) (coherent : n.Coherent)
    (event : Event) (integer : event = .cycle → ∀ now clock,
      s.context.clock.read = .ok (now, clock) → ∃ i, now = .int i) :
    InStep n (s.after event) (s'.after event) := by
  cases event with
  | write name value => exact h.write name value
  | advance span =>
    exact ⟨⟨h.left.network, h.left.consistent⟩, ⟨h.right.network, h.right.consistent⟩,
      congrArg (fun clock => orStay clock (Clock.advance clock span)) h.clock, h.store, h.states⟩
  | cycle => exact (h.cycle orderless coherent (integer rfl)).1

/-- What a run preserves, as long as the clock shows integers. -/
private theorem InStep.run (h : InStep n s s') (orderless : Orderless n) (coherent : n.Coherent)
    {events : List Event} (integers : s.context.clock.ReadsIntegers events) :
    InStep n (events.foldl Simulation.after s) (events.foldl Simulation.after s') := by
  induction events generalizing s s' with
  | nil => exact h
  | cons event rest ih =>
    obtain ⟨integer, integers⟩ := integers
    rw [← clock_after] at integers
    exact ih (h.after orderless coherent event integer) integers

/-- Scans depend neither on the order of the elements nor on whether results are kept. Of a valid
network without cycles whose coils write variables of their own that no element consults, and whose
off-delay timers have positive presets and no wire at the elapsed time, let the elements stand in two
orders and keep results or not: after every run from reset states in which the clock shows integers,
all variables hold the same, and the next scan ends without an error. -/
theorem variables_independent_of_order {n : Network} (valid : n.Valid) (orderless : Orderless n)
    {es : List Element} (order : es.Perm n.elements) (context : Context) (memoize : Bool)
    {events : List Event} (integers : context.clock.ReadsIntegers events) :
    let s := events.foldl Simulation.after (start context n).reset
    let s' := events.foldl Simulation.after
      (start { context with memoize := memoize } { n with elements := es }).reset
    (∀ name, s'.context.store.value? name = s.context.store.value? name) ∧
      ∀ i clock, s.context.clock.read = .ok (.int i, clock) →
        s.cycle.result = .ok () ∧ s'.cycle.result = .ok () := by
  intro s s'
  have begun : InStep n (start context n).reset
      (start { context with memoize := memoize } { n with elements := es }).reset :=
    ⟨⟨⟨.refl _, rfl⟩, consistent_nil n⟩, ⟨⟨order, rfl⟩, consistent_nil n⟩, rfl, fun _ => rfl,
      fun _ _ => rfl⟩
  have run : InStep n s s' := begun.run orderless valid.coherent integers
  refine ⟨run.store, fun i clock hread => ?_⟩
  refine (run.cycle orderless valid.coherent ?_).2 _ clock hread
  intro now next hnow
  rw [hread] at hnow
  cases hnow
  exact ⟨i, rfl⟩

/-- A lamp that stays on for a while after its switch, and an exit sign that is on while the lamp is
off. -/
def exitSign : Network where
  id := "n"
  elements :=
    [⟨"switch", .contact, {}, [("variable", .text "X1")]⟩,
      ⟨"stay", .timerOff, {}, [("preset", .text "T#2s")]⟩,
      ⟨"lamp", .coil, {}, [("variable", .text "Y1")]⟩,
      ⟨"dark", .not, {}, []⟩,
      ⟨"exit", .coil, {}, [("variable", .text "Y2")]⟩]
  connections :=
    [⟨⟨"switch", "out"⟩, ⟨"stay", "in"⟩⟩, ⟨⟨"stay", "q"⟩, ⟨"lamp", "in"⟩⟩,
      ⟨⟨"stay", "q"⟩, ⟨"dark", "in"⟩⟩, ⟨⟨"dark", "out"⟩, ⟨"exit", "in"⟩⟩]

private theorem valid_exitSign : exitSign.Valid := by decide

private theorem orderless_exitSign : Orderless exitSign := by
  have lines : ∀ c ∈ exitSign.elements, ∀ source target,
      coilLine? exitSign c = some (source, target) →
        (target = "Y1" ∨ target = "Y2") ∧ c.id = if target = "Y1" then "lamp" else "exit" := by
    intro c hc source target line
    simp only [exitSign, List.mem_cons, List.not_mem_nil, or_false] at hc
    rcases hc with rfl | rfl | rfl | rfl | rfl <;> cases line <;> simp
  refine ⟨⟨by decide, by decide⟩, ?acyclic, ?distinct, ?unread⟩
  case acyclic =>
    intro id cycle
    have acyclic : ¬ ReachesCycle exitSign id :=
      not_reachesCycle_of_rank (fun _ => True)
        (fun id => ["switch", "stay", "lamp", "dark", "exit"].idxOf id) (by decide) trivial
    exact acyclic ⟨id, .refl, cycle⟩
  case distinct =>
    intro c hc d hd source other target hline hline'
    refine valid_exitSign.coherent.eq_of_id hc hd ?_
    rw [(lines c hc source target hline).2, (lines d hd other target hline').2]
  case unread =>
    intro c hc source target hline e he consults
    obtain ⟨htarget, -⟩ := lines c hc source target hline
    simp only [exitSign, List.mem_cons, List.not_mem_nil, or_false] at he
    rcases he with rfl | rfl | rfl | rfl | rfl <;> rcases htarget with rfl | rfl <;>
      simp [Element.Consults, Kind.isContact, Kind.takesOperand, Element.reference?, Value.field,
        Table.value?, Value.text?] at consults

/-- The lamp is switched on and off again, with its coil before or behind that of the exit sign, and
with its timer evaluated twice in a scan or once. -/
theorem exitSign_in_any_order :
    let events : List Event := [.write (.text "X1") (.bool true), .cycle,
      .write (.text "X1") (.bool false), .cycle, .advance (.int 2000), .cycle]
    let s := events.foldl Simulation.after (start {} exitSign).reset
    let s' := events.foldl Simulation.after
      (start { memoize := true } { exitSign with elements := exitSign.elements.reverse }).reset
    exitSign.Valid ∧ Orderless exitSign ∧ exitSign.elements.reverse.Perm exitSign.elements ∧
      Clock.ReadsIntegers {} events ∧
      (∀ name, s'.context.store.value? name = s.context.store.value? name) ∧
      ∀ i clock, s.context.clock.read = .ok (.int i, clock) →
        s.cycle.result = .ok () ∧ s'.cycle.result = .ok () := by
  intro events s s'
  have integers : Clock.ReadsIntegers {} events := by
    refine Clock.readsIntegers_of_int (fun span hspan => ?_) 0 0
    simp only [events, List.mem_cons, reduceCtorEq, Event.advance.injEq, List.not_mem_nil, or_false,
      false_or] at hspan
    exact ⟨2000, hspan⟩
  have order := List.reverse_perm exitSign.elements
  exact ⟨valid_exitSign, orderless_exitSign, order, integers,
    variables_independent_of_order valid_exitSign orderless_exitSign order {} true integers⟩

end Simulation

end RungLogic
