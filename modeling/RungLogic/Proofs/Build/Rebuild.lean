import RungLogic.Proofs.Build.Matches
import RungLogic.Proofs.Build.Quantities
import RungLogic.Proofs.Build.RoundTrip
import RungLogic.Proofs.Network.Parts
import RungLogic.Proofs.Simulation.Twins

/-!
Networks traced and built again. A variant of a built network is traced piece by piece, and each
instruction lays a piece that computes the same; so the network that is built from the trace is a twin
of the variant, and both go through every run in step.
-/

set_option autoImplicit false
set_option relaxedAutoImplicit false

namespace RungLogic

/-- Operators that join a contact to the rung. -/
def Operator.joins : Operator → Bool
  | .and | .andn | .or | .orn => true
  | _ => false

/-- Whether each gate of a program finds the accumulator loaded. -/
def Program.gatesLoaded (loaded : Bool) : Program → Bool
  | [] => true
  | i :: rest =>
    (!i.operator.joins || loaded) && gatesLoaded (i.operator.loads loaded) rest

namespace Cell

/-- The kind of the element that a cell lays on the rung. -/
def block : Cell → Kind
  | .load kind => kind
  | .store kind => kind
  | .gate _ kind => kind
  | .invert => .not
  | .preset kind _ => kind
  | .operand kind => kind

def isNegated : Cell → Bool
  | .gate side _ => side = .contactNegated
  | _ => false

end Cell

namespace Operator

variable {o : Operator} {cell : Cell}

private theorem operator?_block (hcell : o.cell? = some cell) {negated : Bool}
    (h : cell.block.isGate = true → negated = cell.isNegated) :
    cell.block.operator? negated = some o := by
  cases o <;> cases hcell <;> simp_all [Cell.block, Cell.isNegated, Kind.operator?, Kind.isGate]

private theorem joins_eq_isGate (hcell : o.cell? = some cell) : o.joins = cell.block.isGate := by
  cases o <;> cases hcell <;> rfl

private theorem fallback_of_cell? {k : Kind} {fallback : String}
    (hcell : o.cell? = some (.preset k fallback)) :
    k.isTimer = true ∧ fallback = "T#1s" ∨ k.isCounter = true ∧ fallback = "10" := by
  cases o <;> cases hcell <;> decide

private theorem takesOperand_of_cell? {k : Kind} (hcell : o.cell? = some (.operand k)) :
    k.takesOperand = true := by
  cases o <;> cases hcell <;> rfl

end Operator

namespace Network

variable {e : Element}

private theorem operandOf_named (n : Network) (h : e.kind.isContact = true ∨ e.kind.isCoil = true) :
    n.operandOf e = e.reference? := by
  rcases h with h | h
  · rcases Kind.isContact_iff.mp h with hkind | hkind <;> simp only [operandOf, hkind]
  · rcases Kind.isCoil_iff.mp h with hkind | hkind <;> simp only [operandOf, hkind]

private theorem operandOf_preset (n : Network) (h : e.kind.isTimer = true ∨ e.kind.isCounter = true) :
    n.operandOf e = quantityText e.preset := by
  rcases h with h | h <;> rcases hkind : e.kind <;> rw [hkind] at h <;> cases h <;>
    simp only [operandOf, hkind]

private theorem operandOf_operand (n : Network) (h : e.kind.takesOperand = true) :
    n.operandOf e = quantityText e.operand := by
  rcases hkind : e.kind <;> rw [hkind] at h <;> cases h <;> simp only [operandOf, hkind]

private theorem operandOf_gate (n : Network) (h : e.kind.isGate = true) :
    n.operandOf e = (n.secondSide? e).bind Element.reference? := by
  rcases Kind.isGate_iff.mp h with hkind | hkind <;> simp only [operandOf, hkind]

end Network

section Pieces

variable {n : Network} {f : Element → Element} {carrier : Option Element} {l : Laid}
  {rest : List Laid} {o : Operator} {cell : Cell}

private theorem instruction?_main (h : Carries n carrier (l :: rest)) (hcell : o.cell? = some cell)
    (hkind : l.main.kind = cell.block)
    (hside : ∀ s ∈ l.side, decide (s.kind = .contactNegated) = cell.isNegated)
    (fed : l.main.kind.isGate = true → l.feeder.isSome = true) :
    n.instruction? l.main = some ⟨o, n.operandOf l.main, none⟩ := by
  have negated : cell.block.isGate = true →
      ((n.secondSide? l.main).any fun s => s.kind = .contactNegated) = cell.isNegated := by
    intro gate
    rw [← hkind] at gate
    obtain ⟨s, hs⟩ := Option.isSome_iff_exists.mp (h.fits.gate gate)
    rw [secondSide?_main h, if_pos (fed gate), hs]
    exact hside s hs
  rw [Network.instruction?, hkind, Operator.operator?_block hcell negated]
  rfl

private theorem visible_fed (h : l.Fits) (fed : l.main.kind.isGate = true → l.feeder.isSome = true) :
    l.visible = [l.main] := by
  rcases hs : l.side with _ | s
  · exact visible_of_side_none hs
  · obtain ⟨a, ha⟩ := Option.isSome_iff_exists.mp (fed (h.side s hs).2)
    exact visible_of_feeder_some ha

private theorem Cursor.match_laid {c c' : Cursor} {operand : Option String}
    (kinds : ∀ e, (f e).kind = e.kind) (hcell : o.cell? = some cell)
    (h : Carries n carrier ((c.laid operand cell).map f :: rest))
    (fed : cell.block.isGate = true → c.carrier.isSome = true)
    (same : c'.carrier.isSome = c.carrier.isSome)
    (measured : ∀ e ∈ (c.laid operand cell).elements, (f e).Measured) :
    ((c.laid operand cell).map f).Match
      (c'.laid (n.operandOf (f (c.laid operand cell).main)) cell) := by
  have proper := Operator.isProper_of_cell? hcell
  have carried : c'.carrier.isSome = (c.carrier.map f).isSome := by rw [same, Option.isSome_map]
  have hkind := kinds (c.laid operand cell).main
  have hmain := measured _ (Laid.main_mem_elements _)
  cases cell with
  | load k =>
    have named : k.isContact = true ∨ k.isCoil = true := .inl proper
    rw [n.operandOf_named (hkind ▸ named)]
    exact ⟨Element.twin_named hkind.symm (hkind ▸ named) (Element.reference?_mk _ _ _ _), .none, rfl⟩
  | store k =>
    have named : k.isContact = true ∨ k.isCoil = true := .inr proper
    rw [n.operandOf_named (hkind ▸ named)]
    exact ⟨Element.twin_named hkind.symm (hkind ▸ named) (Element.reference?_mk _ _ _ _), .none,
      carried⟩
  | gate side k =>
    obtain ⟨contact, gate⟩ := Bool.and_eq_true_iff.mp proper
    let s := (c.element side 0 (reference operand)).1
    have sideKind : (f s).kind = side := kinds s
    have named : (f s).kind.isContact = true ∨ (f s).kind.isCoil = true := .inl (sideKind ▸ contact)
    have fedMain : (c.carrier.map f).isSome = true := by rw [Option.isSome_map, fed gate]
    have second : n.secondSide? (f (c.laid operand (.gate side k)).main) = some (f s) :=
      (secondSide?_main h).trans (if_pos fedMain)
    rw [n.operandOf_gate (hkind ▸ gate), second]
    exact ⟨Element.twin_of_kind hkind.symm (Kind.of_isGate (hkind ▸ gate)),
      .some (Element.twin_named sideKind.symm named (Element.reference?_mk _ _ _ _)), carried⟩
  | invert =>
    have isNot : (f (c.laid operand .invert).main).kind = .not := hkind
    exact ⟨Element.twin_of_kind hkind.symm (isNot ▸ by decide), .none, carried⟩
  | preset k fallback =>
    rcases Operator.fallback_of_cell? hcell with ⟨timer, rfl⟩ | ⟨counter, rfl⟩
    · rw [n.operandOf_preset (.inl (hkind ▸ timer))]
      exact ⟨Element.twin_timer hkind.symm (hkind ▸ timer) hmain (Element.preset_mk _ _ _ _), .none,
        carried⟩
    · rw [n.operandOf_preset (.inr (hkind ▸ counter))]
      exact ⟨Element.twin_counter hkind.symm (hkind ▸ counter) hmain (Element.preset_mk _ _ _ _),
        .none, carried⟩
  | operand k =>
    have block := Operator.takesOperand_of_cell? hcell
    rw [n.operandOf_operand (hkind ▸ block)]
    exact ⟨Element.twin_operand hkind.symm (hkind ▸ block) hmain (Element.operand_mk _ _ _ _), .none,
      carried⟩

private theorem feeder_of_isGate {c : Cursor} {operand : Option String} (hcell : o.cell? = some cell)
    (gate : cell.block.isGate = true) : (c.laid operand cell).feeder = c.carrier := by
  have proper := Operator.isProper_of_cell? hcell
  cases cell with
  | load k => cases k <;> cases proper <;> cases gate
  | _ => rfl

private theorem Cursor.kind_laid (c : Cursor) (operand : Option String) (cell : Cell) :
    (c.laid operand cell).main.kind = cell.block := by
  cases cell <;> rfl

private theorem Cursor.isNegated_side (kinds : ∀ e, (f e).kind = e.kind) {c : Cursor}
    {operand : Option String} {s : Element} (hs : s ∈ ((c.laid operand cell).map f).side) :
    decide (s.kind = .contactNegated) = cell.isNegated := by
  obtain ⟨t, ht, rfl⟩ := Option.map_eq_some_iff.mp hs
  rw [kinds]
  cases cell <;> cases ht
  rfl

private theorem Cursor.filterMap_visible {c : Cursor} {operand : Option String}
    (kinds : ∀ e, (f e).kind = e.kind) (hcell : o.cell? = some cell)
    (h : Carries n carrier ((c.laid operand cell).map f :: rest))
    (fed : cell.block.isGate = true → c.carrier.isSome = true) :
    ((c.laid operand cell).map f).visible.filterMap n.instruction? =
      [⟨o, n.operandOf (f (c.laid operand cell).main), none⟩] := by
  have hkind : ((c.laid operand cell).map f).main.kind = cell.block :=
    (kinds _).trans (c.kind_laid operand cell)
  have hfeeder : ((c.laid operand cell).map f).main.kind.isGate = true →
      ((c.laid operand cell).map f).feeder.isSome = true := by
    intro gate
    rw [hkind] at gate
    rw [Laid.map, Option.isSome_map, feeder_of_isGate hcell gate]
    exact fed gate
  have traced := instruction?_main h hcell hkind (fun _ hs => isNegated_side kinds hs) hfeeder
  rw [visible_fed h.fits hfeeder, List.filterMap_cons, traced]
  rfl

/-- What is traced from a variant lays pieces that match one by one. The induction is on the program;
both cursors carry the rung at the same places. -/
private theorem Cursor.match_laids (kinds : ∀ e, (f e).kind = e.kind) {c c' : Cursor} {p : Program}
    (h : Carries n (c.carrier.map f) ((c.laids p).map (Laid.map f)))
    (loaded : p.gatesLoaded c.carrier.isSome = true)
    (same : c'.carrier.isSome = c.carrier.isSome)
    (measured : ∀ e ∈ laidElements (c.laids p), (f e).Measured) :
    List.Forall₂ Laid.Match ((c.laids p).map (Laid.map f)) (c'.laids
      ((((c.laids p).map (Laid.map f)).flatMap Laid.visible).filterMap n.instruction?)) := by
  induction p generalizing c c' with
  | nil => exact .nil
  | cons i rest ih =>
    obtain ⟨joins, loaded⟩ := Bool.and_eq_true_iff.mp loaded
    rcases hcell : i.operator.cell? with _ | cell
    · simp only [Cursor.laids, hcell] at h measured ⊢
      rw [(normal_of_skipped hcell c.carrier.isSome).2] at loaded
      exact ih h loaded same measured
    · have proper := Operator.isProper_of_cell? hcell
      have hnext := (c.lay_spec i.operand proper).2.1
      have loads := loads_eq hcell c c.carrier.isSome
      simp only [Cursor.laids, hcell, List.map_cons] at h measured ⊢
      rw [loads] at loaded
      have fed : cell.block.isGate = true → c.carrier.isSome = true := by
        intro gate
        rw [Operator.joins_eq_isGate hcell, gate] at joins
        exact joins
      rw [List.flatMap_cons, List.filterMap_append, filterMap_visible kinds hcell h fed]
      simp only [List.singleton_append, Cursor.laids, hcell]
      refine .cons ?_ (ih ?_ ?_ ?_ ?_)
      · exact match_laid kinds hcell h fed same fun e he => measured e (List.mem_append_left _ he)
      · have tail := h.tail
        rwa [Laid.carrier_map kinds, ← hnext] at tail
      · rwa [hnext]
      -- Both pieces have one operator, so both carry the rung on or neither does.
      · have hnext' := (c'.lay_spec (n.operandOf (f (c.laid i.operand cell).main)) proper).2.1
        rw [hnext, hnext', ← loads]
        exact (loads_eq (i := ⟨i.operator, n.operandOf (f (c.laid i.operand cell).main), none⟩)
          hcell c' c.carrier.isSome).symm
      · exact fun e he => measured e (List.mem_append_right _ he)

end Pieces

/-- A variant of a built network, traced and built again, computes the same in every run, when each
counter has a preset: after any writes, clock advances and scans the variables are the same, and so
is whether the next scan succeeds. -/
theorem Network.Variant.rebuild {rename : String → String} {p : Program} {supply : Supply}
    {m n : Network} (variant : m.Variant rename n) (built : (p.build supply).1 = .ok m)
    (loaded : p.gatesLoaded false = true) (valid : n.Valid)
    (counts : ∀ e ∈ n.elements, e.kind.isCounter = true →
      ∃ s, quantityText e.preset = some s ∧ s ≠ "")
    (o : TraceOptions) (supply' : Supply) :
    ∃ n' next, (n.trace o).build supply' = (.ok n', next) ∧
      ∀ (context : Context) (events : List Event),
        let s := events.foldl Simulation.after (Simulation.start context n).reset
        let s' := events.foldl Simulation.after (Simulation.start context n').reset
        s'.context.store = s.context.store ∧ s'.cycle.result = s.cycle.result := by
  have coherent := valid.coherent
  obtain ⟨id, _, build⟩ := p.build_eq supply
  rw [build] at built
  obtain rfl := Except.ok.inj built
  have laid := variant.isLaid coherent (p.isLaid supply id)
  have measured : ∀ e ∈ laidElements (p.laids supply), (n.varied rename e).Measured := by
    intro e he
    have hd : n.varied rename e ∈ n.elements := by
      rw [variant.elements_eq coherent]
      exact List.mem_map_of_mem he
    obtain ⟨preset, operand⟩ := Element.Valid.isQuantity (valid.elements _ hd)
    exact ⟨preset, operand, counts _ hd⟩
  have traced : n.trace o =
      (((p.laids supply).map (Laid.map (n.varied rename))).flatMap Laid.visible).filterMap
        n.instruction? := by
    rw [Network.trace, laid.order o]
  have pairs : List.Forall₂ Laid.Match ((p.laids supply).map (Laid.map (n.varied rename)))
      ((n.trace o).laids supply') := by
    rw [traced]
    exact Cursor.match_laids (c := { supply := supply }) (f := n.varied rename) (fun _ => rfl)
      laid.carries loaded rfl measured
  obtain ⟨id', next, build'⟩ := (n.trace o).build_eq supply'
  have laid' := (n.trace o).isLaid supply' id'
  obtain ⟨rename', twins⟩ := exists_twins laid laid' pairs
  refine ⟨_, next, build', fun context events => ?_⟩
  have aligned := (Simulation.aligned_start context n _).run twins coherent laid'.coherent
    laid'.not_reachesCycle events
  exact ⟨aligned.store, (aligned.cycle twins coherent laid'.coherent laid'.not_reachesCycle).2.1⟩

/-- Parts are counted and delayed. -/
def conveyor : Program :=
  [⟨.ld, some "X1", none⟩, ⟨.andn, some "X2", none⟩, ⟨.ctu, some "5", none⟩, ⟨.st, some "Y1", none⟩,
    ⟨.ld, some "X1", none⟩, ⟨.gt, some "0", none⟩, ⟨.ton, some "T#5s", none⟩, ⟨.st, some "Y2", none⟩]

/-- The conveyor with other ids, and with numbers for texts; the timer has lost its preset. -/
def conveyorBelt : Network where
  id := "belt"
  elements :=
    [⟨"belt id1", .contact, {}, [("variable", .text "X1")]⟩,
      ⟨"belt id2", .contactNegated, {}, [("variable", .text "X2")]⟩, ⟨"belt id3", .and, {}, []⟩,
      ⟨"belt id4", .counterUp, {}, [("preset", .int 3)]⟩,
      ⟨"belt id5", .coil, {}, [("variable", .text "Y1")]⟩,
      ⟨"belt id6", .contact, {}, [("variable", .text "X1")]⟩,
      ⟨"belt id7", .greaterThan, {}, [("operand", .num (.real 0.5))]⟩, ⟨"belt id8", .timerOn, {}, []⟩,
      ⟨"belt id9", .coil, {}, [("variable", .text "Y2")]⟩]
  connections :=
    [⟨⟨"belt id1", "out"⟩, ⟨"belt id3", "in1"⟩⟩, ⟨⟨"belt id2", "out"⟩, ⟨"belt id3", "in2"⟩⟩,
      ⟨⟨"belt id3", "out"⟩, ⟨"belt id4", "cu"⟩⟩, ⟨⟨"belt id4", "q"⟩, ⟨"belt id5", "in"⟩⟩,
      ⟨⟨"belt id6", "out"⟩, ⟨"belt id7", "in1"⟩⟩, ⟨⟨"belt id7", "out"⟩, ⟨"belt id8", "in"⟩⟩,
      ⟨⟨"belt id8", "q"⟩, ⟨"belt id9", "in"⟩⟩]

private theorem valid_conveyorBelt : conveyorBelt.Valid := by decide

/-- The belt is traced and built again, and a part goes by. -/
theorem conveyorBelt_rebuild :
    let events : List Event := [.write (.text "X1") (.bool true), .cycle, .advance (.int 2000), .cycle]
    let s := events.foldl Simulation.after (Simulation.start {} conveyorBelt).reset
    conveyor.gatesLoaded false = true ∧ conveyorBelt.Valid ∧
      ∃ m n' next, (conveyor.build {}).1 = .ok m ∧ m.Variant ("belt " ++ ·) conveyorBelt ∧
        (conveyorBelt.trace {}).build {} = (.ok n', next) ∧
        let s' := events.foldl Simulation.after (Simulation.start {} n').reset
        s'.context.store = s.context.store ∧ s'.cycle.result = s.cycle.result := by
  intro events s
  have loaded : conveyor.gatesLoaded false = true := by decide
  have counts : ∀ e ∈ conveyorBelt.elements, e.kind.isCounter = true →
      ∃ t, quantityText e.preset = some t ∧ t ≠ "" := by
    intro e he counter
    simp only [conveyorBelt, List.mem_cons, List.not_mem_nil, or_false] at he
    rcases he with rfl | rfl | rfl | rfl | rfl | rfl | rfl | rfl | rfl <;> cases counter
    exact ⟨"3", rfl, by decide⟩
  obtain ⟨m, built⟩ : ∃ m, (conveyor.build {}).1 = .ok m := ⟨_, rfl⟩
  have variant : m.Variant ("belt " ++ ·) conveyorBelt := by
    obtain rfl := Except.ok.inj built
    refine ⟨?_, rfl⟩
    repeat refine .cons ⟨rfl, rfl⟩ ?_
    exact .nil
  obtain ⟨n', next, rebuilt, same⟩ :=
    variant.rebuild built loaded valid_conveyorBelt counts {} {}
  exact ⟨loaded, valid_conveyorBelt, m, n', next, built, variant, rebuilt, same {} events⟩

/-- A counter whose preset is missing. -/
def tally : Network where
  id := "tally"
  elements := [⟨"tally id1", .contact, {}, [("variable", .text "X1")]⟩,
    ⟨"tally id2", .counterUp, {}, []⟩, ⟨"tally id3", .coil, {}, [("variable", .text "Y1")]⟩]
  connections :=
    [⟨⟨"tally id1", "out"⟩, ⟨"tally id2", "cu"⟩⟩, ⟨⟨"tally id2", "q"⟩, ⟨"tally id3", "in"⟩⟩]

private theorem valid_tally : tally.Valid := by decide

private theorem trace_tally :
    tally.trace {} = [⟨.ld, some "X1", none⟩, ⟨.ctu, none, none⟩, ⟨.st, some "Y1", none⟩] := by
  have laid : tally.IsLaid
      [⟨⟨"tally id1", .contact, {}, [("variable", .text "X1")]⟩, none, none⟩,
        ⟨⟨"tally id2", .counterUp, {}, []⟩, none,
          some ⟨"tally id1", .contact, {}, [("variable", .text "X1")]⟩⟩,
        ⟨⟨"tally id3", .coil, {}, [("variable", .text "Y1")]⟩, none,
          some ⟨"tally id2", .counterUp, {}, []⟩⟩] := by
    refine ⟨rfl, rfl, ?_, by decide⟩
    refine .cons ⟨by simp, by simp, by decide, by decide⟩ (.inl rfl) ?_
    refine .cons ⟨by simp, by decide, by decide, by decide⟩ (.inr rfl) ?_
    exact .cons ⟨by simp, by decide, by decide, by decide⟩ (.inr rfl) (.nil none)
  rw [Network.trace, laid.order {}]
  decide

/-- A missing preset stands for zero in a counter, and is replaced by ten when the counter is built
again: the lamp behind it goes on at once, or not. -/
theorem tally_rebuilt_differs :
    let p : Program := [⟨.ld, some "X1", none⟩, ⟨.ctu, some "5", none⟩, ⟨.st, some "Y1", none⟩]
    let context : Context := { store := [("X1", .truth true), ("Y1", .truth false)] }
    let s := [Event.cycle].foldl Simulation.after (Simulation.start context tally).reset
    ∃ m n', p.gatesLoaded false = true ∧ (p.build {}).1 = .ok m ∧
      m.Variant ("tally " ++ ·) tally ∧ tally.Valid ∧ ((tally.trace {}).build {}).1 = .ok n' ∧
        let s' := [Event.cycle].foldl Simulation.after (Simulation.start context n').reset
        (s.context.store.value? "Y1").any (fun c => c.value.truthy) = true ∧
          (s'.context.store.value? "Y1").any (fun c => c.value.truthy) = false := by
  intro p context s
  obtain ⟨m, built⟩ : ∃ m, (p.build {}).1 = .ok m := ⟨_, rfl⟩
  have variant : m.Variant ("tally " ++ ·) tally := by
    obtain rfl := Except.ok.inj built
    exact ⟨.cons ⟨rfl, rfl⟩ (.cons ⟨rfl, rfl⟩ (.cons ⟨rfl, rfl⟩ .nil)), rfl⟩
  rw [trace_tally]
  refine ⟨m, _, by decide, built, variant, valid_tally, rfl, ?_, ?_⟩
  · decide +kernel
  · decide +kernel

end RungLogic
