import RungLogic.Proofs.Scan.Parts
import RungLogic.Proofs.Simulation.Events
import RungLogic.Proofs.Simulation.Reached

/-!
Networks drawn anew. Where elements stand in the layout, further wires at a port, wires at inputs that
are not read and elements without wires make no difference to a simulation: every run of it goes the
same way, errors and loops included.
-/

set_option autoImplicit false
set_option relaxedAutoImplicit false

namespace RungLogic

open Relation Scan

namespace Kind

/-- The inputs that elements of a kind have and never read. -/
def unread : Kind → List String
  | .contact | .contactNegated => ["in"]
  | .timerOn | .timerOff => ["preset"]
  | .counterUp | .counterDown => ["pv"]
  | .timerPulse => ["in", "preset"]
  | .counterUpDown => ["cu", "cd", "r", "ld", "pv"]
  | _ => []

private theorem mem_unread_iff {k : Kind} {port : String} :
    port ∈ k.unread ↔ port ∈ k.inputs ∧ port ∉ readPorts k := by
  have sound : ∀ port ∈ k.unread, port ∈ k.inputs ∧ port ∉ readPorts k := by cases k <;> decide
  have complete : ∀ port ∈ k.inputs, port ∉ readPorts k → port ∈ k.unread := by cases k <;> decide
  exact ⟨sound port, fun h => complete port h.1 h.2⟩

end Kind

namespace Network

def wired (n : Network) (c : Connection) : Network := { n with connections := n.connections ++ [c] }

/-- One change that draws a network anew. -/
inductive Redraw : Network → Network → Prop
  /-- Each element gets some place in the layout. -/
  | move (n : Network) (place : Element → Position) :
      Redraw n { n with elements := n.elements.map fun e => e.movedTo (place e) }
  /-- A wire is added at a port that has one. -/
  | again {n : Network} {c d : Connection} :
      d ∈ n.connections → d.target = c.target → Redraw n (n.wired c)
  /-- A wire is added at an input that its element never reads. -/
  | unread {n : Network} {c : Connection} {e : Element} :
      e ∈ n.elements → e.id = c.target.element → c.target.port ∈ e.kind.unread →
      Redraw n (n.wired c)
  /-- An element without wires is added, under an id of its own. -/
  | element {n : Network} {e : Element} :
      (∀ d ∈ n.elements, d.id ≠ e.id) →
      (∀ c ∈ n.connections, c.source.element ≠ e.id ∧ c.target.element ≠ e.id) →
      Redraw n { n with elements := n.elements ++ [e] }

/-- The second network holds the elements of the first, each at some place, and others behind them
that read no wire; and the first ones read the wires that they read before. -/
structure Redrawn (n n' : Network) : Prop where
  nodup : (n'.elements.map Element.id).Nodup
  elements : ∃ (place : Element → Position) (extra : List Element),
    n'.elements = (n.elements.map fun e => e.movedTo (place e)) ++ extra ∧
      ∀ e ∈ extra, ∀ port ∈ readPorts e.kind, feed? n' e.id port = none
  feed? : ∀ e ∈ n.elements, ∀ port ∈ readPorts e.kind, feed? n' e.id port = feed? n e.id port

variable {n n' n'' : Network}

private theorem Redrawn.refl (nodup : (n.elements.map Element.id).Nodup) : n.Redrawn n := by
  refine ⟨nodup, ⟨Element.position, [], ?_, fun e he => (by cases he)⟩, fun _ _ _ _ => rfl⟩
  rw [Element.map_movedTo_position, List.append_nil]

private theorem Redrawn.trans (h : n.Redrawn n') (h' : n'.Redrawn n'') : n.Redrawn n'' := by
  obtain ⟨place, extra, elements, unfed⟩ := h.elements
  obtain ⟨place', extra', elements', unfed'⟩ := h'.elements
  refine ⟨h'.nodup, ⟨fun e => place' (e.movedTo (place e)),
    (extra.map fun e => e.movedTo (place' e)) ++ extra', ?_, ?_⟩, fun e he port hport => ?_⟩
  · rw [elements', elements, List.map_append, List.map_map, List.append_assoc]
    rfl
  · intro e he port hport
    rcases List.mem_append.mp he with he | he
    · obtain ⟨d, hd, rfl⟩ := List.mem_map.mp he
      have hd' : d ∈ n'.elements := elements ▸ List.mem_append_right _ hd
      exact (h'.feed? d hd' port hport).trans (unfed d hd port hport)
    · exact unfed' e he port hport
  · have he' : e.movedTo (place e) ∈ n'.elements :=
      elements ▸ List.mem_append_left _ (List.mem_map_of_mem he)
    exact (h'.feed? _ he' port hport).trans (h.feed? e he port hport)

private theorem feed?_wired (n : Network) (c : Connection) (id port : String) :
    Scan.feed? (n.wired c) id port = (Scan.feed? n id port).or
      (if c.target.element = id ∧ c.target.port = port then some c.source else none) := by
  simp only [Scan.feed?, wired, List.find?_append, Option.map_or]
  by_cases h : c.target.element = id ∧ c.target.port = port
  · rw [if_pos h, List.find?_cons_of_pos (by simpa using h)]
    rfl
  · rw [if_neg h, List.find?_cons_of_neg (by simpa using h)]
    rfl

private theorem exists_feed? {c : Connection} (hc : c ∈ n.connections) :
    ∃ r, Scan.feed? n c.target.element c.target.port = some r := by
  have found : (n.connections.find? fun d =>
      d.target.element = c.target.element && d.target.port = c.target.port).isSome = true :=
    List.find?_isSome.mpr ⟨c, hc, by simp⟩
  obtain ⟨d, hd⟩ := Option.isSome_iff_exists.mp found
  exact ⟨d.source, by rw [Scan.feed?, hd, Option.map_some]⟩

private theorem redrawn_wired (nodup : (n.elements.map Element.id).Nodup) {c : Connection}
    (unread : ∀ e ∈ n.elements, ∀ port ∈ readPorts e.kind, c.target = ⟨e.id, port⟩ →
      ∃ r, Scan.feed? n e.id port = some r) : n.Redrawn (n.wired c) := by
  refine ⟨nodup, ⟨Element.position, [], ?_, fun e he => (by cases he)⟩, ?_⟩
  · rw [Element.map_movedTo_position, List.append_nil]
    rfl
  · intro e he port hport
    rw [feed?_wired]
    by_cases target : c.target.element = e.id ∧ c.target.port = port
    · obtain ⟨r, hr⟩ := unread e he port hport (by rw [← target.1, ← target.2])
      rw [hr, Option.some_or]
    · rw [if_neg target, Option.or_none]

private theorem Redraw.redrawn (h : Redraw n n') (nodup : (n.elements.map Element.id).Nodup) :
    n.Redrawn n' := by
  cases h with
  | move place =>
    refine ⟨?_, ⟨place, [], (List.append_nil _).symm, fun e he => (by cases he)⟩, fun _ _ _ _ => rfl⟩
    rw [List.map_map]
    exact nodup
  | again hd same =>
    refine redrawn_wired nodup fun e he port hport target => ?_
    obtain ⟨r, hr⟩ := exists_feed? hd
    rw [same, target] at hr
    exact ⟨r, hr⟩
  | unread hd id port =>
    refine redrawn_wired nodup fun e he other hport target => ?_
    rw [target] at id port
    obtain rfl := List.inj_on_of_nodup_map nodup hd he id
    exact ((Kind.mem_unread_iff.mp port).2 hport).elim
  | @element e fresh unwired =>
    refine ⟨?_, ⟨Element.position, [e], ?_, ?_⟩, fun _ _ _ _ => rfl⟩
    · rw [List.map_append]
      refine List.nodup_append.mpr ⟨nodup, List.nodup_singleton _, fun a ha b hb => ?_⟩
      obtain ⟨d, hd, rfl⟩ := List.mem_map.mp ha
      rw [List.map_singleton, List.mem_singleton] at hb
      rw [hb]
      exact fresh d hd
    · rw [Element.map_movedTo_position]
    · intro d hd port _
      rw [List.mem_singleton.mp hd]
      rcases hfeed : Scan.feed? n e.id port with _ | r
      · exact hfeed
      · exact ((unwired _ (mem_connections_of_feed? hfeed)).2 rfl).elim

private theorem redrawn_of_redraws (h : ReflTransGen Redraw n n')
    (nodup : (n.elements.map Element.id).Nodup) :
    n.Redrawn n' := by
  induction h with
  | refl => exact .refl nodup
  | tail _ step ih => exact ih.trans (step.redrawn ih.nodup)

end Network

namespace Scan

open Network (Redrawn)

variable {n n' : Network}

private theorem exists_partOf (h : n.Redrawn n') : ∃ place extra,
    n'.elements = (n.elements.map fun e => e.movedTo (place e)) ++ extra ∧
      PartOf place n n' ∧ ∀ e ∈ extra, coilLine? n' e = none := by
  obtain ⟨place, extra, elements, unfed⟩ := h.elements
  refine ⟨place, extra, elements, ⟨fun e he => ?_, h.feed?⟩, fun e he => ?_⟩
  · have moved : e.movedTo (place e) ∈ n'.elements :=
      elements ▸ List.mem_append_left _ (List.mem_map_of_mem he)
    exact Network.find?_id_eq_some h.nodup moved
  · rcases hline : coilLine? n' e with _ | ⟨source, target⟩
    · rfl
    · obtain ⟨hkind, hfeed, -, -⟩ := coilLine?_eq_some_iff.mp hline
      rw [unfed e he "in" (readPorts_of_isCoil hkind ▸ List.mem_cons_self)] at hfeed
      cases hfeed

/-- A scan goes the same way in every drawing of a network. -/
private theorem scan_redrawn (h : n.Redrawn n') (coherent : n.Coherent) (now : Number) (memoize : Bool)
    (p : Progress) :
    scanElements ⟨n', now, memoize⟩ n'.elements p = scanElements ⟨n, now, memoize⟩ n.elements p := by
  obtain ⟨place, extra, elements, part, idle⟩ := exists_partOf h
  have scan := scan_before ⟨n, now, memoize⟩ part coherent (Memory.foreign_empty n)
    (fun e he => he) p
  have scan : scanElements ⟨n', now, memoize⟩ (n.elements.map fun e => e.movedTo (place e)) p =
      scanElements ⟨n, now, memoize⟩ n.elements p := scan
  rw [elements, scanElements_append, scan]
  rcases scanElements ⟨n, now, memoize⟩ n.elements p with ⟨_ | fault, q⟩
  · exact scanElements_idle idle q
  · rfl

end Scan

namespace Simulation

open Network (Redraw Redrawn)

/-- The same simulation of another network. -/
def withNetwork (s : Simulation) (n : Network) : Simulation :=
  { s with scanner := { s.scanner with network := n } }

private theorem cycle_withNetwork (s : Simulation) {n' : Network} (h : s.scanner.network.Redrawn n')
    (coherent : s.scanner.network.Coherent) : (s.withNetwork n').cycle =
      { result := s.cycle.result
        state := s.cycle.state.withNetwork n'
        notices := s.cycle.notices } := by
  rcases hread : s.context.clock.read with fault | ⟨now, clock⟩
  · rw [cycle_of_read_error hread, cycle_of_read_error (s := s.withNetwork n') hread]
  · rcases hscan : scanElements ⟨s.scanner.network, now, s.context.memoize⟩ s.scanner.network.elements
      ⟨s.context.store, { states := s.context.states }⟩ with ⟨fault, p⟩
    have hscan' := (scan_redrawn h coherent now s.context.memoize _).trans hscan
    rw [cycle_of_read hread hscan, cycle_of_read (s := s.withNetwork n') hread hscan']
    rfl

private theorem network_after (s : Simulation) (event : Event) :
    (s.after event).scanner.network = s.scanner.network := by
  cases event with
  | write name value =>
    rw [after_write]
  | advance span => rfl
  | cycle =>
    rcases hread : s.context.clock.read with fault | ⟨now, clock⟩
    · rw [after, cycle_of_read_error hread]
    · rw [after, cycle_of_read hread rfl]

private theorem after_withNetwork (s : Simulation) {n' : Network} (h : s.scanner.network.Redrawn n')
    (coherent : s.scanner.network.Coherent) (event : Event) :
    (s.withNetwork n').after event = (s.after event).withNetwork n' := by
  cases event with
  | write name value =>
    rw [after_write, after_write]
    rfl
  | advance span => rfl
  | cycle => exact congrArg Outcome.state (cycle_withNetwork s h coherent)

/-- A run goes the same way in every drawing of the network. -/
private theorem run_withNetwork (s : Simulation) {n' : Network} (h : s.scanner.network.Redrawn n')
    (coherent : s.scanner.network.Coherent) (events : List Event) :
    events.foldl after (s.withNetwork n') = (events.foldl after s).withNetwork n' ∧
      (events.foldl after s).scanner.network = s.scanner.network := by
  induction events generalizing s with
  | nil => exact ⟨rfl, rfl⟩
  | cons event rest ih =>
    have network := network_after s event
    obtain ⟨runs, stays⟩ := ih (s.after event) (network ▸ h) (network ▸ coherent)
    rw [List.foldl_cons, List.foldl_cons, after_withNetwork s h coherent]
    exact ⟨runs, stays.trans network⟩

/-- Nobody notices in a simulation how the network is drawn. Put the elements of a valid network
elsewhere, add wires at ports that have one already or are not read, and elements without wires, as
often as you like: from the same context on, whatever is written from outside and however the clock
moves, every scan ends the same way, with the same error if there is one, and leaves the same
variables, states and recorded outputs. -/
theorem redrawing_unnoticed {n n' : Network} (valid : n.Valid) (redraws : ReflTransGen Redraw n n')
    (context : Context) (events : List Event) :
    let s := events.foldl after (start context n)
    let s' := events.foldl after (start context n')
    s'.context = s.context ∧ s'.cycle.result = s.cycle.result ∧ s'.cycle.notices = s.cycle.notices ∧
      s'.cycle.state.context = s.cycle.state.context := by
  intro s s'
  have coherent := valid.coherent
  have redrawn := Network.redrawn_of_redraws redraws coherent.nodup
  obtain ⟨run, network⟩ := run_withNetwork (start context n) redrawn coherent events
  have same : s' = s.withNetwork n' := run
  have last : s.scanner.network.Redrawn n' ∧ s.scanner.network.Coherent := by
    rw [network]
    exact ⟨redrawn, coherent⟩
  rw [same, cycle_withNetwork s last.1 last.2]
  exact ⟨rfl, rfl, rfl, rfl⟩

/-- A lamp that comes on some time after its switch. -/
def stairs : Network where
  id := "stairs"
  elements :=
    [⟨"switch", .contact, {}, [("variable", .text "X1")]⟩,
      ⟨"delay", .timerOn, {}, [("preset", .text "T#2s")]⟩,
      ⟨"lamp", .coil, {}, [("variable", .text "Y1")]⟩]
  connections := [⟨⟨"switch", "out"⟩, ⟨"delay", "in"⟩⟩, ⟨⟨"delay", "q"⟩, ⟨"lamp", "in"⟩⟩]

/-- The same elements further down, and a sensor that is wired to the delay behind the switch, and to
the input of the switch. -/
def stairsRedrawn : Network where
  id := "stairs"
  elements :=
    [⟨"switch", .contact, ⟨.int 1, .int 5⟩, [("variable", .text "X1")]⟩,
      ⟨"delay", .timerOn, ⟨.int 1, .int 5⟩, [("preset", .text "T#2s")]⟩,
      ⟨"lamp", .coil, ⟨.int 1, .int 5⟩, [("variable", .text "Y1")]⟩,
      ⟨"sensor", .contact, {}, [("variable", .text "X2")]⟩]
  connections :=
    [⟨⟨"switch", "out"⟩, ⟨"delay", "in"⟩⟩, ⟨⟨"delay", "q"⟩, ⟨"lamp", "in"⟩⟩,
      ⟨⟨"sensor", "out"⟩, ⟨"delay", "in"⟩⟩, ⟨⟨"sensor", "out"⟩, ⟨"switch", "in"⟩⟩]

private theorem valid_stairs : stairs.Valid := by decide

private theorem redraws_stairs : ReflTransGen Redraw stairs stairsRedrawn := by
  have moved := Redraw.move stairs fun _ => ⟨.int 1, .int 5⟩
  refine .tail (.tail (.tail (.single moved)
    (.element (e := ⟨"sensor", .contact, {}, [("variable", .text "X2")]⟩) (by decide) (by decide)))
    (.again (c := ⟨⟨"sensor", "out"⟩, ⟨"delay", "in"⟩⟩) List.mem_cons_self rfl))
    (.unread (c := ⟨⟨"sensor", "out"⟩, ⟨"switch", "in"⟩⟩) List.mem_cons_self rfl List.mem_cons_self)

/-- Switch and sensor are written, time passes, and the lamp is what it is without the sensor. -/
theorem stairs_unnoticed :
    let events : List Event :=
      [.write (.text "X2") (.bool true), .cycle, .write (.text "X1") (.bool true), .cycle,
        .advance (.int 2500)]
    let s := events.foldl after (start {} stairs)
    let s' := events.foldl after (start {} stairsRedrawn)
    stairs.Valid ∧ ReflTransGen Redraw stairs stairsRedrawn ∧ s'.context = s.context ∧
      s'.cycle.result = s.cycle.result ∧ s'.cycle.notices = s.cycle.notices ∧
      s'.cycle.state.context = s.cycle.state.context := by
  intro events s s'
  exact ⟨valid_stairs, redraws_stairs,
    redrawing_unnoticed valid_stairs redraws_stairs {} events⟩

end Simulation

end RungLogic
