import RungLogic.Proofs.Build.Chain
import RungLogic.Proofs.Network.Reach

/-!
Tracing what has been built. The walk meets the elements in the order in which they were laid, with
the contacts folded into the gates that they serve, so it gives the program back in a normal form.
-/

set_option autoImplicit false
set_option relaxedAutoImplicit false

namespace RungLogic

/-- What is left of an instruction when it has been built and traced again; it depends on whether
the accumulator is loaded. -/
def Instruction.normal (loaded : Bool) (i : Instruction) : Program :=
  match i.operator with
  | .xor | .tp | .ctud | .r | .s => []
  | .ld | .ldn | .st | .stn => [⟨i.operator, i.operand, none⟩]
  | .not => [⟨.not, none, none⟩]
  | .ton | .tof => [⟨i.operator, some ((i.operand.filter (· ≠ "")).getD "T#1s"), none⟩]
  | .ctu | .ctd => [⟨i.operator, some ((i.operand.filter (· ≠ "")).getD "10"), none⟩]
  | .add | .sub | .mul | .div | .gt | .ge | .eq | .ne | .le | .lt =>
    [⟨i.operator, i.operand, none⟩]
  | .and => if loaded then [⟨.and, i.operand, none⟩] else [⟨.ld, i.operand, none⟩, ⟨.and, none, none⟩]
  | .andn =>
    if loaded then [⟨.andn, i.operand, none⟩] else [⟨.ldn, i.operand, none⟩, ⟨.and, none, none⟩]
  | .or => if loaded then [⟨.or, i.operand, none⟩] else [⟨.ld, i.operand, none⟩, ⟨.or, none, none⟩]
  | .orn =>
    if loaded then [⟨.orn, i.operand, none⟩] else [⟨.ldn, i.operand, none⟩, ⟨.or, none, none⟩]

def Operator.loads (loaded : Bool) : Operator → Bool
  | .xor | .tp | .ctud | .r | .s => loaded
  | .st | .stn => false
  | _ => true

/-- The normal form of a program, from whether the accumulator is loaded. -/
def Program.normalizeFrom (loaded : Bool) : Program → Program
  | [] => []
  | i :: rest => i.normal loaded ++ normalizeFrom (i.operator.loads loaded) rest

def Program.normalize (p : Program) : Program := p.normalizeFrom false

namespace Laid

/-- The elements of a piece that the walk meets. -/
def visible (l : Laid) : List Element :=
  match l.feeder with
  | some _ => [l.main]
  | none => l.elements

/-- The elements of a piece at which the walk begins. -/
def entries (l : Laid) : List Element :=
  match l.feeder with
  | some _ => []
  | none => l.elements

end Laid

variable {n : Network} {carrier : Option Element} {l : Laid} {rest : List Laid}

private theorem isFed_main (h : Carries n carrier (l :: rest)) :
    n.isFed l.main.id = l.feeder.isSome := by
  rw [n.isFed_eq, h.entering_main]
  rcases hfeeder : l.feeder with _ | a
  · simp [Laid.wires, hfeeder]
  · simp [Laid.wires, hfeeder, Network.feeds, h.found_main]

private theorem isFed_side (h : Carries n carrier (l :: rest)) {s : Element}
    (hs : l.side = some s) : n.isFed s.id = false := by
  rw [n.isFed_eq, h.entering_side hs]
  rfl

private theorem isOperandContact_side (h : Carries n carrier (l :: rest)) {s : Element}
    (hs : l.side = some s) : n.isOperandContact s = l.feeder.isSome := by
  obtain ⟨hcontact, hgate⟩ := h.fits.side s hs
  simp only [Network.isOperandContact, n.incoming_none, n.outgoing_none, h.entering_side hs,
    h.leaving_side hs, hcontact]
  rcases hfeeder : l.feeder with _ | a
  · rfl
  · simp [Network.endsAtGate, h.found_main, hgate]

private theorem isOperandContact_main (h : Carries n carrier (l :: rest)) :
    n.isOperandContact l.main = false := by
  rcases hcontact : l.main.kind.isContact with _ | _
  · simp [Network.isOperandContact, hcontact]
  · have hcoil : l.main.kind.isCoil = false := by
      rcases Kind.isContact_iff.mp hcontact with hkind | hkind <;> rw [hkind] <;> rfl
    have hcarrier := Laid.carrier_eq_some hcoil
    have tail := h.tail
    rcases rest with _ | ⟨next, rest⟩
    · have hleaving := tail.leaving l.main (by simp [hcarrier])
      simp [Network.isOperandContact, n.outgoing_none, hleaving, laidWires]
    · have hleaving := tail.leaving_carrier hcarrier
      rcases hfeeder : next.feeder with _ | a
      · simp [Network.isOperandContact, n.outgoing_none, hleaving, hfeeder]
      · simp [Network.isOperandContact, n.outgoing_none, hleaving, hfeeder, Network.endsAtGate,
          Kind.primaryInput_ne_in2]

private theorem Carries.entries_eq {ls : List Laid} (h : Carries n carrier ls) :
    (laidElements ls).filter (fun e => !n.isFed e.id && !n.isOperandContact e) =
      ls.flatMap Laid.entries := by
  induction ls generalizing carrier with
  | nil => rfl
  | cons l rest ih =>
    have hrest := ih h.tail
    have hpiece : l.elements.filter (fun e => !n.isFed e.id && !n.isOperandContact e) =
        l.entries := by
      rcases hfeeder : l.feeder with _ | a <;> rcases hs : l.side with _ | s <;>
        simp [Laid.elements, Laid.entries, hfeeder, hs, isFed_main h, isOperandContact_main h]
      · simp [isFed_side h hs, isOperandContact_side h hs, hfeeder]
      · simp [isFed_side h hs, isOperandContact_side h hs, hfeeder]
    rw [laidElements, List.flatMap_cons, List.filter_append, hpiece, List.flatMap_cons]
    exact congrArg (l.entries ++ ·) hrest

namespace Network

private theorem isMet_append_singleton (met : List Element) (e : Element) (id : String) :
    isMet (met ++ [e]) id = (isMet met id || decide (e.id = id)) := by
  simp [isMet]

end Network

private theorem successors_eq (n : Network) (o : TraceOptions) {e : Element}
    (h : e.kind ≠ .timerPulse ∧ e.kind ≠ .counterUpDown) :
    n.successors o e = ((n.connections.filter fun w => w.source.element = e.id).filter
      fun w => w.source.port = e.kind.primaryOutput).filterMap
        fun w => n.element? w.target.element := by
  have expanded : n.isExpanded o e = true := by
    simp [Network.isExpanded, (n.isSome_instruction? e).mpr h]
  rw [Network.successors, if_pos expanded, n.outgoing_some]

private theorem successors_carrier (o : TraceOptions) (h : Carries n carrier (l :: rest))
    {a : Element} (ha : carrier = some a)
    (known : a.kind ≠ .timerPulse ∧ a.kind ≠ .counterUpDown) :
    (n.successors o a).map Element.id = if l.feeder.isSome then [l.main.id] else [] := by
  rw [successors_eq n o known, h.leaving_carrier ha]
  rcases hfeeder : l.feeder with _ | b
  · rfl
  · simp [h.found_main]

private theorem successors_side (o : TraceOptions) (h : Carries n carrier (l :: rest))
    {s : Element} (hs : l.side = some s) (hfeeder : l.feeder = none) : n.successors o s = [] := by
  have hcontact := (h.fits.side s hs).1
  have known : s.kind ≠ .timerPulse ∧ s.kind ≠ .counterUpDown := by
    rcases Kind.isContact_iff.mp hcontact with hkind | hkind <;> rw [hkind] <;> decide
  rw [successors_eq n o known, h.leaving_side hs, hfeeder]
  rfl

private theorem successors_coil (o : TraceOptions) (h : Carries n carrier (l :: rest))
    (hcoil : l.main.kind.isCoil = true) : n.successors o l.main = [] := by
  rw [successors_eq n o h.fits.counterpart, h.leaving_coil hcoil]
  rfl

/-- Where the walk goes from what carries the rung. -/
private def onward (n : Network) (o : TraceOptions) (carrier : Option Element) : List String :=
  match carrier with
  | some a => (n.successors o a).map Element.id
  | none => []

private theorem onward_main (o : TraceOptions) (h : Carries n carrier (l :: rest)) :
    (n.successors o l.main).map Element.id = onward n o l.carrier := by
  rcases hcoil : l.main.kind.isCoil with _ | _
  · rw [Laid.carrier_eq_some hcoil, onward]
  · rw [Laid.carrier_eq_none hcoil, successors_coil o h hcoil]
    rfl

private theorem onward_carrier (o : TraceOptions) (h : Carries n carrier (l :: rest))
    (known : ∀ a ∈ carrier, a.kind ≠ .timerPulse ∧ a.kind ≠ .counterUpDown) :
    onward n o carrier = if l.feeder.isSome then [l.main.id] else [] := by
  rcases carrier with _ | a
  · have hnone : l.feeder = none := by
      rcases h.feeder with hnone | hnone
      · exact hnone
      · exact hnone
    rw [hnone]
    rfl
  · exact successors_carrier o h rfl (known a rfl)

private theorem isMet_rest (h : Carries n carrier (l :: rest)) {met es : List Element}
    (new : ∀ e ∈ laidElements (l :: rest), Network.isMet met e.id = false)
    (hes : es ⊆ l.elements) :
    ∀ e ∈ laidElements rest, Network.isMet (met ++ es) e.id = false := by
  intro e he
  have hmet := new e (List.mem_append_right _ he)
  have hpiece : Network.isMet es e.id = false := by
    refine List.any_eq_false.mpr fun d hd => ?_
    have hne : e.id ≠ d.id := by
      rcases List.mem_append.mp (hes hd) with hside | hmain
      · exact h.apart.side_rest d (Option.mem_toList.mp hside) e he
      · rw [List.mem_singleton.mp hmain]
        exact h.apart.main_rest e he
    simpa using hne.symm
  rw [Network.isMet, List.any_append]
  exact Bool.or_eq_false_iff.mpr ⟨hmet, hpiece⟩

/-- From the carrier, and then from what has no feeder, the walk meets the rest in the order in which
it was laid. The induction is on the pieces; what is still to be laid has not been met. -/
private theorem Carries.walk_eq {ls : List Laid} (h : Carries n carrier ls) (o : TraceOptions)
    (known : ∀ a ∈ carrier, a.kind ≠ .timerPulse ∧ a.kind ≠ .counterUpDown) (met : List Element)
    (new : ∀ e ∈ laidElements ls, Network.isMet met e.id = false) :
    (ls.flatMap Laid.entries).foldl (fun met e => n.walk o met [e.id])
      (n.walk o met (onward n o carrier)) = met ++ ls.flatMap Laid.visible := by
  induction ls generalizing carrier met with
  | nil =>
    have hnone : onward n o carrier = [] := by
      rcases carrier with _ | a
      · rfl
      · have hleaving := h.leaving a (by simp)
        rw [onward, successors_eq n o (known a rfl), hleaving]
        rfl
    simp [hnone, Network.walk_nil]
  | cons l rest ih =>
    have known' : ∀ a ∈ l.carrier, a.kind ≠ .timerPulse ∧ a.kind ≠ .counterUpDown := by
      intro a ha
      rw [mem_carrier (Option.mem_toList.mpr ha)]
      exact h.fits.counterpart
    have hrest : ∀ es, es ⊆ l.elements →
        (rest.flatMap Laid.entries).foldl (fun met e => n.walk o met [e.id])
          (n.walk o (met ++ es) (onward n o l.carrier)) =
            met ++ es ++ rest.flatMap Laid.visible :=
      fun es hes => ih h.tail known' (met ++ es) (isMet_rest h new hes)
    have hmain : ∀ met, Network.isMet met l.main.id = false →
        n.walk o met [l.main.id] = n.walk o (met ++ [l.main]) (onward n o l.carrier) := by
      intro met hnew
      rw [Network.walk_meet h.found_main hnew, List.nil_append, onward_main o h]
    have newMain := new l.main (List.mem_append_left _ l.main_mem_elements)
    rw [onward_carrier o h known, List.flatMap_cons, List.flatMap_cons, List.foldl_append]
    rcases hfeeder : l.feeder with _ | a
    -- What is not fed is an entry, and so is its second side, which leads nowhere new.
    · rcases hs : l.side with _ | s
      · simp only [Laid.entries, Laid.visible, Laid.elements, hfeeder, hs, Option.toList_none,
          List.nil_append, List.foldl_cons, List.foldl_nil, Option.isSome_none, Bool.false_eq_true,
          if_false, Network.walk_nil, hmain met newMain]
        rw [hrest [l.main] (by simp [Laid.elements]), List.append_assoc]
      · have newSide := new s (List.mem_append_left _ (Laid.side_mem_elements hs))
        have hside : n.walk o met [s.id] = met ++ [s] := by
          rw [Network.walk_meet (h.found_side hs) newSide, List.nil_append,
            successors_side o h hs hfeeder]
          exact Network.walk_nil n o _
        have newMain' : Network.isMet (met ++ [s]) l.main.id = false := by
          simp [Network.isMet_append_singleton, newMain, h.apart.side_main s hs]
        simp only [Laid.entries, Laid.visible, Laid.elements, hfeeder, hs, Option.toList_some,
          List.cons_append, List.nil_append, List.foldl_cons, List.foldl_nil, Option.isSome_none,
          Bool.false_eq_true, if_false, Network.walk_nil, hside, hmain (met ++ [s]) newMain']
        rw [List.append_assoc, hrest ([s] ++ [l.main]) (by simp [Laid.elements, hs])]
        simp
    · simp only [Laid.entries, Laid.visible, hfeeder, List.foldl_nil, Option.isSome_some, if_true]
      rw [hmain met newMain, hrest [l.main] (by simp [Laid.elements]), List.append_assoc]

/-- The walk meets what has been laid in order, without the second sides of fed gates. -/
theorem Network.IsLaid.order {ls : List Laid} (h : n.IsLaid ls) (o : TraceOptions) :
    n.order o = ls.flatMap Laid.visible := by
  have hwalk := h.carries.walk_eq o (fun a ha => by cases ha) [] (fun _ _ => rfl)
  rw [onward, Network.walk_nil] at hwalk
  rw [Network.order, Network.entries, h.elements, h.carries.entries_eq]
  exact hwalk

private theorem Program.order_laids (p : Program) (supply : Supply) (id : String) (o : TraceOptions) :
    (Network.mk id (laidElements (p.laids supply)) (laidWires (p.laids supply))).order o =
      (p.laids supply).flatMap Laid.visible := (p.isLaid supply id).order o

theorem secondSide?_main (h : Carries n carrier (l :: rest)) :
    n.secondSide? l.main = if l.feeder.isSome then l.side else none := by
  rw [Network.secondSide?, n.incoming_some, h.entering_main]
  rcases hfeeder : l.feeder with _ | a
  · simp [Laid.wires, hfeeder]
  · rcases hs : l.side with _ | s
    · simp [Laid.wires, hfeeder, hs, Kind.primaryInput_ne_in2]
    · simp [Laid.wires, hfeeder, hs, Kind.primaryInput_ne_in2, h.found_side hs]

private theorem quantityText_ofText? (operand : Option String) :
    quantityText (.ofText? operand) = operand := by
  rcases operand with _ | s <;> rfl

private theorem instruction?_gate (h : Carries n carrier (l :: rest))
    (hgate : l.main.kind.isGate = true) :
    n.instruction? l.main =
      (l.main.kind.operator? ((if l.feeder.isSome then l.side else none).any
        fun s => s.kind = .contactNegated)).map
          fun o => ⟨o, (if l.feeder.isSome then l.side else none).bind Element.reference?, none⟩ := by
  rw [← secondSide?_main h]
  unfold Network.instruction? Network.operandOf
  cases hkind : l.main.kind <;> first | rfl | (rw [hkind] at hgate; cases hgate)

theorem visible_of_side_none (h : l.side = none) : l.visible = [l.main] := by
  rcases hfeeder : l.feeder with _ | a <;> simp [Laid.visible, Laid.elements, hfeeder, h]

private theorem visible_of_feeder_none (h : l.feeder = none) : l.visible = l.elements := by
  simp [Laid.visible, h]

theorem visible_of_feeder_some {a : Element} (h : l.feeder = some a) :
    l.visible = [l.main] := by
  simp [Laid.visible, h]

private theorem trace_laid {c : Cursor} {i : Instruction} {cell : Cell}
    (hcell : i.operator.cell? = some cell)
    (h : Carries n c.carrier (c.laid i.operand cell :: rest)) :
    (c.laid i.operand cell).visible.filterMap n.instruction? = i.normal c.carrier.isSome := by
  obtain ⟨op, operand, modifier⟩ := i
  cases op with
  | xor | tp | ctud | r | s => cases hcell
  | ld | ldn | st | stn | not =>
    cases hcell
    rw [visible_of_side_none rfl]
    simp [Network.instruction?, Cursor.laid, Cursor.element, Kind.operator?, Network.operandOf,
      Instruction.normal]
  | ton | tof | ctu | ctd =>
    cases hcell
    rw [visible_of_side_none rfl]
    simp [Network.instruction?, Cursor.laid, Cursor.element, Kind.operator?, Network.operandOf,
      Instruction.normal, quantityText, Value.plain, Cursor.orElse_eq]
  | add | sub | mul | div | gt | ge | eq | ne | le | lt =>
    cases hcell
    rw [visible_of_side_none rfl]
    simp [Network.instruction?, Cursor.laid, Cursor.element, Kind.operator?, Network.operandOf,
      Instruction.normal, quantityText_ofText?]
  | and | andn | or | orn =>
    cases hcell
    have hmain := instruction?_gate h rfl
    rcases hcarrier : c.carrier with _ | a
    · rw [visible_of_feeder_none hcarrier, Laid.elements, List.filterMap_append,
        List.filterMap_cons, hmain]
      simp [Network.instruction?, Cursor.laid, Cursor.element, Kind.operator?, Network.operandOf,
        Instruction.normal, hcarrier]
    · rw [visible_of_feeder_some hcarrier, List.filterMap_cons, hmain]
      simp [Cursor.laid, Cursor.element, Kind.operator?, Instruction.normal, hcarrier]

theorem normal_of_skipped {i : Instruction} (hcell : i.operator.cell? = none)
    (loaded : Bool) : i.normal loaded = [] ∧ i.operator.loads loaded = loaded := by
  obtain ⟨op, operand, modifier⟩ := i
  cases op <;> first | exact ⟨rfl, rfl⟩ | cases hcell

theorem loads_eq {i : Instruction} {cell : Cell} (hcell : i.operator.cell? = some cell)
    (c : Cursor) (loaded : Bool) :
    i.operator.loads loaded = (c.laid i.operand cell).carrier.isSome := by
  obtain ⟨op, operand, modifier⟩ := i
  cases op <;> cases hcell <;> rfl

private theorem instructions_laids (c : Cursor) (p : Program) (h : Carries n c.carrier (c.laids p)) :
    ((c.laids p).flatMap Laid.visible).filterMap n.instruction? =
      p.normalizeFrom c.carrier.isSome := by
  induction p generalizing c with
  | nil => rfl
  | cons i rest ih =>
    rcases hcell : i.operator.cell? with _ | cell
    · obtain ⟨hnormal, hloads⟩ := normal_of_skipped hcell c.carrier.isSome
      simp only [Cursor.laids, hcell] at h ⊢
      rw [Program.normalizeFrom, hnormal, hloads]
      exact ih c h
    · have hnext := (Cursor.lay_spec c i.operand (Operator.isProper_of_cell? hcell)).2.1
      simp only [Cursor.laids, hcell] at h ⊢
      have hrest := ih (c.lay i.operand cell).2 (hnext ▸ h.tail)
      rw [List.flatMap_cons, List.filterMap_append, trace_laid hcell h, hrest, hnext,
        Program.normalizeFrom, loads_eq hcell c]

/-- What a program lays is traced as its normal form. -/
theorem Program.trace_laids (p : Program) (supply : Supply) (id : String) (o : TraceOptions) :
    (Network.mk id (laidElements (p.laids supply)) (laidWires (p.laids supply))).trace o =
      p.normalize := by
  rw [Network.trace, p.order_laids]
  exact instructions_laids { supply := supply } p (carries_laids p supply id)

/-- Tracing a built program gives its normal form back. -/
theorem Program.trace_build (p : Program) (supply : Supply) (o : TraceOptions) :
    ∃ n next, p.build supply = (.ok n, next) ∧ n.trace o = p.normalize := by
  obtain ⟨id, next, hbuild⟩ := p.build_eq supply
  exact ⟨_, next, hbuild, p.trace_laids supply id o⟩

/-- A gate without a rung comes back as a load and a gate without an operand. -/
example :
    Program.normalize [⟨.orn, some "X1", some "N"⟩, ⟨.ton, some "", none⟩, ⟨.s, some "Y1", none⟩,
        ⟨.st, some "Y1", none⟩] =
      [⟨.ldn, some "X1", none⟩, ⟨.or, none, none⟩, ⟨.ton, some "T#1s", none⟩,
        ⟨.st, some "Y1", none⟩] := by
  decide

end RungLogic
