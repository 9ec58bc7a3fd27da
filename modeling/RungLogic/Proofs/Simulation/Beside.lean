import RungLogic.Proofs.Network.Beside
import RungLogic.Proofs.Scan.Parts
import RungLogic.Proofs.Simulation.Reached

/-!
Networks side by side. Two networks without an id in common, put together into one, do in one scan what
they do in two scans one after the other: no element reads a wire, a state or a kept result of the other
part, and the coils of the second part find what those of the first have written.
-/

set_option autoImplicit false
set_option relaxedAutoImplicit false

namespace RungLogic

namespace Scan

open Network (Apart)

variable {n m : Network}

private theorem feed?_beside (n m : Network) (name id port : String) :
    feed? (n.beside m name) id port = (feed? n id port).or (feed? m id port) := by
  simp only [feed?, Network.beside, List.find?_append, Option.map_or]

private theorem feed?_eq_none (coherent : n.Coherent) {id : String} (h : ∀ e ∈ n.elements, e.id ≠ id)
    (port : String) : feed? n id port = none := by
  rcases hfeed : feed? n id port with _ | r
  · rfl
  · obtain ⟨e, he, target, -⟩ := coherent.target _ (mem_connections_of_feed? hfeed)
    exact (h e he target).elim

private theorem partOf_beside_left (hn : n.Coherent) (hm : m.Coherent) (apart : n.Apart m) (name : String) :
    PartOf Element.position n (n.beside m name) := by
  refine ⟨fun e he => ?_, fun e he port _ => ?_⟩
  · rw [Network.element?_beside, hn.element?_of_mem he]
    rfl
  · rw [feed?_beside, feed?_eq_none hm fun d hd => (apart e he d hd).symm, Option.or_none]

private theorem partOf_beside_right (hn : n.Coherent) (hm : m.Coherent) (apart : n.Apart m)
    (name : String) :
    PartOf Element.position m (n.beside m name) := by
  refine ⟨fun e he => ?_, fun e he port _ => ?_⟩
  · rw [Network.element?_beside, Network.element?_eq_none fun d hd => apart d hd e he,
      hm.element?_of_mem he]
    rfl
  · rw [feed?_beside, feed?_eq_none hn fun d hd => apart d hd e he, Option.none_or]

private theorem Memory.Within.foreign {memory : Memory} (h : Memory.Within n memory) (apart : n.Apart m) :
    Memory.Foreign m memory := by
  refine ⟨fun e he member => ?_, fun e he member => ?_⟩
  · obtain ⟨d, hd, same⟩ := h.kept _ member
    exact apart d hd e he same
  · obtain ⟨d, hd, same⟩ := h.outputs _ member
    exact apart d hd e he same

/-- A scan of networks side by side is a scan of the first and, unless an error ends it, a scan of the
second with the variables and the states that the first has left. -/
private theorem scan_beside (hn : n.Coherent) (hm : m.Coherent) (apart : n.Apart m) (name : String)
    (now : Number) (memoize : Bool) (store : Store) (states : Table ElementState) :
    scanElements ⟨n.beside m name, now, memoize⟩ (n.elements ++ m.elements)
        ⟨store, { states := states }⟩ =
      match scanElements ⟨n, now, memoize⟩ n.elements ⟨store, { states := states }⟩ with
      | (none, q) => Prod.map id (Progress.behind · q.memory)
          (scanElements ⟨m, now, memoize⟩ m.elements ⟨q.store, { states := q.memory.states }⟩)
      | ended => ended := by
  have first := scan_in_place ⟨n, now, memoize⟩ (partOf_beside_left hn hm apart name) hn
    (Memory.foreign_empty n) ⟨store, { states := states }⟩
  have first : scanElements ⟨n.beside m name, now, memoize⟩ n.elements ⟨store, { states := states }⟩ =
      scanElements ⟨n, now, memoize⟩ n.elements ⟨store, { states := states }⟩ := first
  rw [scanElements_append, first]
  rcases hscan : scanElements ⟨n, now, memoize⟩ n.elements ⟨store, { states := states }⟩
    with ⟨_ | fault, q⟩
  · have within := within_scan hscan
    have goes : Progress.behind ⟨q.store, { states := q.memory.states }⟩ q.memory = q := by
      simp only [Progress.behind, Memory.before, List.append_nil]
    have second := scan_in_place ⟨m, now, memoize⟩
      (partOf_beside_right hn hm apart name) hm (within.foreign apart)
      ⟨q.store, { states := q.memory.states }⟩
    rw [goes] at second
    exact second
  · rfl

end Scan

namespace Simulation

open Scan

variable {n m : Network}

/-- The result of a scan, which an error may have ended. -/
def ended : Option Error → Except Error Unit
  | some fault => .error fault
  | none => .ok ()

private theorem cycle_start (context : Context) (network : Network) {now : Number} {clock : Clock}
    {fault : Option Error} {p : Progress} (hread : context.clock.read = .ok (now, clock))
    (hscan : scanElements ⟨network, now, context.memoize⟩ network.elements
      ⟨context.store, { states := context.states }⟩ = (fault, p)) :
    (start context network).cycle.result = ended fault ∧
    (start context network).cycle.state.context = { context with
      store := p.store, states := p.memory.states, clock := clock
      recorded := if fault.isNone then p.memory.outputs else context.recorded } := by
  rw [cycle_of_read (s := start context network) hread hscan]
  cases fault <;> exact ⟨rfl, rfl⟩

/-- Two scans that come to the same result with the same variables and states. -/
structure EndsAs (o o' : Outcome Simulation Unit) : Prop where
  result : o.result = o'.result
  store : o.state.context.store = o'.state.context.store
  states : o.state.context.states = o'.state.context.states

section

variable {context : Context} {now : Number} {clock : Clock} {q : Progress} {name : String}

private theorem both_of_failed (hn : n.Coherent) (hm : m.Coherent) (apart : n.Apart m)
    (hread : context.clock.read = .ok (now, clock)) {fault : Error}
    (failed : scanElements ⟨n, now, context.memoize⟩ n.elements
      ⟨context.store, { states := context.states }⟩ = (some fault, q)) :
    (start context n).cycle.result = .error fault ∧
      EndsAs (start context (n.beside m name)).cycle (start context n).cycle := by
  have hscan := scan_beside hn hm apart name now context.memoize context.store context.states
  rw [failed] at hscan
  obtain ⟨result₁, context₁⟩ := cycle_start context n hread failed
  obtain ⟨result, left⟩ := cycle_start context (n.beside m name) hread hscan
  refine ⟨result₁, result.trans result₁.symm, ?_, ?_⟩
  · exact (congrArg Context.store left).trans (congrArg Context.store context₁).symm
  · exact (congrArg Context.states left).trans (congrArg Context.states context₁).symm

/-- When the first network is scanned to its end, the scan of both goes on as a scan of the second. -/
private theorem both_of_completed (hn : n.Coherent) (hm : m.Coherent) (apart : n.Apart m)
    (hread : context.clock.read = .ok (now, clock))
    (completed : scanElements ⟨n, now, context.memoize⟩ n.elements
      ⟨context.store, { states := context.states }⟩ = (none, q)) :
    let first := (start context n).cycle
    let second := (start { first.state.context with clock := context.clock } m).cycle
    let both := (start context (n.beside m name)).cycle
    first.result = .ok () ∧ EndsAs both second ∧
      (second.result = .ok () →
        both.state.context.recorded =
          first.state.context.recorded ++ second.state.context.recorded ∧
        ∀ id ∈ first.state.context.recorded.names, id ∉ second.state.context.recorded.names) := by
  intro first second both
  rcases hscan₂ : scanElements ⟨m, now, context.memoize⟩ m.elements
    ⟨q.store, { states := q.memory.states }⟩ with ⟨fault, r⟩
  -- The scan of both is the scan of the first, and then that of the second from what it has left.
  have hscan := scan_beside hn hm apart name now context.memoize context.store context.states
  simp only [completed, hscan₂] at hscan
  obtain ⟨result₁, context₁⟩ := cycle_start context n hread completed
  obtain ⟨result, left⟩ := cycle_start context (n.beside m name) hread hscan
  have hsecond : scanElements ⟨m, now, first.state.context.memoize⟩ m.elements
      ⟨first.state.context.store, { states := first.state.context.states }⟩ = (fault, r) := by
    rw [context₁]
    exact hscan₂
  obtain ⟨result₂, context₂⟩ := cycle_start { first.state.context with clock := context.clock } m
    hread hsecond
  refine ⟨result₁, ⟨result.trans result₂.symm, ?_, ?_⟩, fun ok => ?_⟩
  · exact (congrArg Context.store left).trans (congrArg Context.store context₂).symm
  · exact (congrArg Context.states left).trans (congrArg Context.states context₂).symm
  · rcases fault with _ | fault
    · have recorded₁ : first.state.context.recorded = q.memory.outputs :=
        congrArg Context.recorded context₁
      have recorded₂ : second.state.context.recorded = r.memory.outputs :=
        congrArg Context.recorded context₂
      rw [recorded₁, recorded₂]
      refine ⟨congrArg Context.recorded left, fun id inFirst inSecond => ?_⟩
      obtain ⟨d, hd, rfl⟩ := (within_scan completed).outputs id inFirst
      obtain ⟨e, he, same⟩ := (within_scan hscan₂).outputs d.id inSecond
      exact apart d hd e he same.symm
    · have error := result₂.symm.trans ok
      cases error

end

/-- A scan of two networks side by side does what a scan of the first and then a scan of the second
do, when both take the same reading of the clock. An error of either ends it and leaves what it leaves
there; when both are completed, what is recorded is what the one records and then what the other
records, under ids of their own. -/
theorem beside_eq_in_turn (validN : n.Valid) (validM : m.Valid) (apart : n.Apart m) {name : String}
    (named : Text.isName name = true) (context : Context) :
    let first := (start context n).cycle
    let second := (start { first.state.context with clock := context.clock } m).cycle
    let both := (start context (n.beside m name)).cycle
    (n.beside m name).Valid ∧
    (∀ fault, first.result = .error fault → EndsAs both first) ∧
    (first.result = .ok () → EndsAs both second ∧
      (second.result = .ok () →
        both.state.context.recorded =
          first.state.context.recorded ++ second.state.context.recorded ∧
        ∀ id ∈ first.state.context.recorded.names, id ∉ second.state.context.recorded.names)) := by
  intro first second both
  have hn := validN.coherent
  have hm := validM.coherent
  refine ⟨validN.beside validM apart named, ?_⟩
  rcases hread : context.clock.read with fault | ⟨now, clock⟩
  · have hfirst : first = _ := cycle_of_read_error (s := start context n) hread
    have hboth : both = _ := cycle_of_read_error (s := start context (n.beside m name)) hread
    rw [hfirst, hboth]
    exact ⟨fun _ _ => ⟨rfl, rfl, rfl⟩, fun ok => (by cases ok)⟩
  · rcases hscan : scanElements ⟨n, now, context.memoize⟩ n.elements
      ⟨context.store, { states := context.states }⟩ with ⟨_ | fault, q⟩
    · obtain ⟨result, goesOn⟩ := both_of_completed hn hm apart hread hscan
      refine ⟨fun fault failed => ?_, fun _ => goesOn⟩
      have absurd := result.symm.trans failed
      cases absurd
    · obtain ⟨result, ends⟩ := both_of_failed hn hm apart hread hscan
      refine ⟨fun _ _ => ends, fun ok => ?_⟩
      have absurd := result.symm.trans ok
      cases absurd

/-- A lamp that follows its switch. -/
def hall : Network where
  id := "hall"
  elements :=
    [⟨"switch", .contact, {}, [("variable", .text "X1")]⟩,
      ⟨"lamp", .coil, {}, [("variable", .text "LAMP")]⟩]
  connections := [⟨⟨"switch", "out"⟩, ⟨"lamp", "in"⟩⟩]

/-- A bell that rings when the lamp in the hall has been on for a while. -/
def porch : Network where
  id := "porch"
  elements :=
    [⟨"sensor", .contact, {}, [("variable", .text "LAMP")]⟩,
      ⟨"delay", .timerOn, {}, [("preset", .text "T#2s")]⟩,
      ⟨"bell", .coil, {}, [("variable", .text "BELL")]⟩]
  connections := [⟨⟨"sensor", "out"⟩, ⟨"delay", "in"⟩⟩, ⟨⟨"delay", "q"⟩, ⟨"bell", "in"⟩⟩]

private theorem valid_hall : hall.Valid := by decide

private theorem valid_porch : porch.Valid := by decide

private theorem hall_apart_porch : hall.Apart porch := by decide

private theorem completed_hall : (start {} hall).cycle.result = .ok () :=
  cycle_completed valid_hall.coherent
    (fun _ => not_reachesCycle_of_rank (fun _ => True)
      (fun id => ["switch", "lamp"].idxOf id) (by decide) trivial) (consistent_nil hall) rfl

/-- Hall and porch in one network: the sensor finds in the same scan what the lamp has written. -/
theorem house_in_turn :
    let first := (start {} hall).cycle
    let second := (start { first.state.context with clock := {} } porch).cycle
    let both := (start {} (hall.beside porch "house")).cycle
    hall.Valid ∧ porch.Valid ∧ hall.Apart porch ∧ Text.isName "house" = true ∧
      (hall.beside porch "house").Valid ∧ EndsAs both second := by
  intro first second both
  have named : Text.isName "house" = true := by decide
  obtain ⟨valid, -, completed⟩ :=
    beside_eq_in_turn valid_hall valid_porch hall_apart_porch named {}
  exact ⟨valid_hall, valid_porch, hall_apart_porch, named, valid, (completed completed_hall).1⟩

end Simulation

end RungLogic
