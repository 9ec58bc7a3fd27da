import RungLogic.Network.Build
import RungLogic.Proofs.Network.Coherence

/-!
The shape of what is laid. Each instruction with a counterpart lays one element, perhaps with a
contact for its second side, and wires it to the element that carries the rung, if there is one. So
a program lays a list of such pieces, each of which is fed by the one before or by nothing.
-/

set_option autoImplicit false
set_option relaxedAutoImplicit false

namespace RungLogic

theorem Supply.nth_inj {a b : Nat} : Supply.nth a = Supply.nth b ↔ a = b := by
  constructor
  · intro h
    have hdigits : Nat.toDigits 10 a = Nat.toDigits 10 b := by
      have hlist := congrArg String.toList h
      simpa [Supply.nth, String.toList_append, Nat.toString_eq_repr, Nat.repr] using hlist
    have hvalue := congrArg (fun l => Nat.ofDigitChars 10 l 0) hdigits
    simpa [Nat.ofDigitChars_ten_toDigits] using hvalue
  · rintro rfl
    rfl

theorem Supply.isName_nth (k : Nat) : Text.isName (Supply.nth k) = true := by
  simp [Text.isName, Supply.nth, Text.isBlank, String.toList_append]

@[simp]
theorem Element.reference?_mk (id : String) (kind : Kind) (position : Position)
    (operand : Option String) :
    Element.reference? ⟨id, kind, position, Cursor.reference operand⟩ = operand := by
  rcases operand with _ | s <;> simp [reference?, Value.field, Cursor.reference, Table.value?,
    Value.ofText?, Value.text?]

@[simp]
theorem Element.preset_mk (id : String) (kind : Kind) (position : Position) (v : Value) :
    Element.preset ⟨id, kind, position, [("preset", v)]⟩ = v := by
  simp [preset, Value.field, Table.value?]

@[simp]
theorem Element.operand_mk (id : String) (kind : Kind) (position : Position) (v : Value) :
    Element.operand ⟨id, kind, position, [("operand", v)]⟩ = v := by
  simp [operand, Value.field, Table.value?]

theorem Cursor.orElse_eq (operand : Option String) (fallback : String) :
    Cursor.orElse operand fallback = (operand.filter (· ≠ "")).getD fallback := by
  rcases operand with _ | s
  · rfl
  · by_cases hs : s = ""
    · simp [Cursor.orElse, Option.filter, hs]
    · simp [Cursor.orElse, Option.filter, hs]

/-- What one instruction lays: its element, the contact at its second side, and the element that
carries the rung to it. -/
structure Laid where
  main : Element
  side : Option Element := none
  feeder : Option Element := none

namespace Laid

def elements (l : Laid) : List Element := l.side.toList ++ [l.main]

/-- The wires; without a feeder the second side is not wired either. -/
def wires (l : Laid) : List Connection :=
  match l.feeder with
  | none => []
  | some a => ⟨⟨a.id, a.kind.primaryOutput⟩, ⟨l.main.id, l.main.kind.primaryInput⟩⟩ ::
      l.side.toList.map fun s => ⟨⟨s.id, "out"⟩, ⟨l.main.id, "in2"⟩⟩

def carrier (l : Laid) : Option Element := if l.main.kind.isCoil then none else some l.main

/-- The kinds fit the roles: second sides are contacts of gates, and a contact has no feeder. -/
structure Fits (l : Laid) : Prop where
  side : ∀ s ∈ l.side, s.kind.isContact = true ∧ l.main.kind.isGate = true
  contact : l.main.kind.isContact = true → l.feeder = none
  gate : l.main.kind.isGate = true → l.side.isSome = true
  counterpart : l.main.kind ≠ .timerPulse ∧ l.main.kind ≠ .counterUpDown

end Laid

/-- `Linked carrier ls`: laid one after the other behind `carrier`, each piece is fed by what carries
the rung then, or by nothing. -/
inductive Linked : Option Element → List Laid → Prop
  | nil (carrier : Option Element) : Linked carrier []
  | cons {carrier : Option Element} {l : Laid} {rest : List Laid} :
      l.Fits → l.feeder = none ∨ l.feeder = carrier → Linked l.carrier rest →
      Linked carrier (l :: rest)

def laidElements (ls : List Laid) : List Element := ls.flatMap Laid.elements

def laidWires (ls : List Laid) : List Connection := ls.flatMap Laid.wires

namespace Cursor

def laid (c : Cursor) (operand : Option String) : Cell → Laid
  | .load kind => ⟨(c.element kind 0 (reference operand)).1, none, none⟩
  | .store kind => ⟨(c.element kind 0 (reference operand)).1, none, c.carrier⟩
  | .gate side kind =>
    let (s, next) := c.element side 0 (reference operand)
    ⟨(next.element kind 2 []).1, some s, c.carrier⟩
  | .invert => ⟨(c.element .not 0 []).1, none, c.carrier⟩
  | .preset kind fallback =>
    ⟨(c.element kind 0 [("preset", .text (orElse operand fallback))]).1, none, c.carrier⟩
  | .operand kind => ⟨(c.element kind 0 [("operand", .ofText? operand)]).1, none, c.carrier⟩

def laids (c : Cursor) : Program → List Laid
  | [] => []
  | i :: rest =>
    match i.operator.cell? with
    | some cell => c.laid i.operand cell :: (c.lay i.operand cell).2.laids rest
    | none => c.laids rest

end Cursor

/-- Whether a cell lays the kinds that its role asks for. -/
def Cell.isProper : Cell → Bool
  | .load kind => kind.isContact
  | .store kind => kind.isCoil
  | .gate side kind => side.isContact && kind.isGate
  | .invert => true
  | .preset kind _ => kind.isStateful && kind != .timerPulse && kind != .counterUpDown
  | .operand kind => !kind.isContact && !kind.isCoil && !kind.isGate && !kind.isStateful

theorem Operator.isProper_of_cell? {o : Operator} {cell : Cell} (h : o.cell? = some cell) :
    cell.isProper = true := by
  cases o <;> cases h <;> rfl

theorem Laid.carrier_eq_some {l : Laid} (h : l.main.kind.isCoil = false) :
    l.carrier = some l.main := by
  simp [Laid.carrier, h]

theorem Laid.carrier_eq_none {l : Laid} (h : l.main.kind.isCoil = true) : l.carrier = none := by
  simp [Laid.carrier, h]

namespace Cursor

variable {cell : Cell}

private theorem carrier_lay (c : Cursor) (operand : Option String) (h : cell.isProper = true) :
    (c.lay operand cell).2.carrier = (c.laid operand cell).carrier := by
  cases cell with
  | load kind | preset kind | operand kind =>
    have hcoil : kind.isCoil = false := by cases kind <;> first | rfl | cases h
    simp [lay, laid, block, element, carry, Laid.carrier, hcoil]
  | gate side kind =>
    have hcoil : kind.isCoil = false := by cases kind <;> first | rfl | (cases side <;> cases h)
    simp [lay, laid, element, carry, Laid.carrier, hcoil]
  | store kind =>
    have hcoil : kind.isCoil = true := h
    simp [lay, laid, element, nextRung, Laid.carrier, hcoil]
  | invert => rfl

/-- A cell lays its piece, and the cursor goes on behind it. -/
theorem lay_spec (c : Cursor) (operand : Option String) (h : cell.isProper = true) :
    (c.lay operand cell).1 = ⟨(c.laid operand cell).elements, (c.laid operand cell).wires⟩ ∧
      (c.lay operand cell).2.carrier = (c.laid operand cell).carrier ∧
      (c.lay operand cell).2.supply.drawn =
        c.supply.drawn + (c.laid operand cell).elements.length := by
  refine ⟨?_, carrier_lay c operand h, ?_⟩
  · cases cell with
    | store kind =>
      have hport : kind.primaryInput = "in" := by cases kind <;> first | rfl | cases h
      rcases hcarrier : c.carrier with _ | a <;>
        simp [lay, laid, wire, element, Laid.elements, Laid.wires, hcarrier, hport]
    | gate side kind =>
      have hport : kind.primaryInput = "in1" := by
        cases kind <;> first | rfl | (cases side <;> cases h)
      rcases hcarrier : c.carrier with _ | a <;>
        simp [lay, laid, wire, element, Laid.elements, Laid.wires, hcarrier, hport]
    | _ =>
      rcases hcarrier : c.carrier with _ | a <;>
        simp [lay, laid, block, wire, element, Laid.elements, Laid.wires, hcarrier]
  · cases cell <;> rfl

private theorem fits_of_side_none {l : Laid} (hside : l.side = none)
    (hgate : l.main.kind.isGate = false)
    (hcontact : l.feeder = none ∨ l.main.kind.isContact = false)
    (counterpart : l.main.kind ≠ .timerPulse ∧ l.main.kind ≠ .counterUpDown) : l.Fits := by
  refine ⟨?_, ?_, ?_, counterpart⟩
  · simp [hside]
  · intro h
    rcases hcontact with hfeeder | hcontact
    · exact hfeeder
    · simp [hcontact] at h
  · simp [hgate]

private theorem fits_laid (c : Cursor) (operand : Option String) (h : cell.isProper = true) :
    (c.laid operand cell).Fits := by
  cases cell with
  | load kind =>
    have hkind : kind.isGate = false ∧ kind ≠ .timerPulse ∧ kind ≠ .counterUpDown := by
      cases kind <;> cases h <;> decide
    exact fits_of_side_none rfl hkind.1 (.inl rfl) hkind.2
  | store kind | preset kind | operand kind =>
    have hkind : kind.isGate = false ∧ kind.isContact = false ∧ kind ≠ .timerPulse ∧
        kind ≠ .counterUpDown := by
      cases kind <;> cases h <;> decide
    exact fits_of_side_none rfl hkind.1 (.inr hkind.2.1) hkind.2.2
  | gate side kind =>
    obtain ⟨hside, hgate⟩ := Bool.and_eq_true_iff.mp h
    have hkind : kind.isContact = false ∧ kind ≠ .timerPulse ∧ kind ≠ .counterUpDown := by
      cases kind <;> cases hgate <;> decide
    refine ⟨?_, ?_, fun _ => rfl, hkind.2⟩
    · intro s hs
      cases hs
      exact ⟨hside, hgate⟩
    · intro hcontact
      have hmain : kind.isContact = true := hcontact
      rw [hkind.1] at hmain
      cases hmain
  | invert => exact fits_of_side_none rfl rfl (.inr rfl) (by simp [laid, element])

private theorem feeder_laid (c : Cursor) (operand : Option String) (cell : Cell) :
    (c.laid operand cell).feeder = none ∨ (c.laid operand cell).feeder = c.carrier := by
  cases cell <;> simp [laid]

private theorem linked_laids (c : Cursor) (p : Program) : Linked c.carrier (c.laids p) := by
  induction p generalizing c with
  | nil => exact .nil c.carrier
  | cons i rest ih =>
    rcases hcell : i.operator.cell? with _ | cell
    · simp only [laids, hcell]
      exact ih c
    · have proper := Operator.isProper_of_cell? hcell
      simp only [laids, hcell]
      refine .cons (fits_laid c i.operand proper) (feeder_laid c i.operand cell) ?_
      rw [← (lay_spec c i.operand proper).2.1]
      exact ih _

private theorem run_eq (c : Cursor) (p : Program) :
    (c.run p).1 = ⟨laidElements (c.laids p), laidWires (c.laids p)⟩ := by
  induction p generalizing c with
  | nil => rfl
  | cons i rest ih =>
    rcases hcell : i.operator.cell? with _ | cell
    · simp only [run, step, laids, hcell, ih]
      rfl
    · have proper := Operator.isProper_of_cell? hcell
      simp only [run, step, laids, hcell, ih, (lay_spec c i.operand proper).1]
      rfl

private theorem ids_laid (c : Cursor) (operand : Option String) (cell : Cell) :
    (c.laid operand cell).elements.map Element.id =
      (List.range' (c.supply.drawn + 1) (c.laid operand cell).elements.length).map Supply.nth := by
  cases cell <;> rfl

private theorem ids_laids (c : Cursor) (p : Program) :
    (laidElements (c.laids p)).map Element.id =
      (List.range' (c.supply.drawn + 1) (laidElements (c.laids p)).length).map Supply.nth := by
  induction p generalizing c with
  | nil => rfl
  | cons i rest ih =>
    rcases hcell : i.operator.cell? with _ | cell
    · simp only [laids, hcell]
      exact ih c
    · have drawn := (lay_spec c i.operand (Operator.isProper_of_cell? hcell)).2.2
      have hrest := ih (c.lay i.operand cell).2
      rw [drawn] at hrest
      simp only [laids, hcell, laidElements, List.flatMap_cons, List.map_append, List.length_append,
        ids_laid] at hrest ⊢
      rw [hrest, ← List.map_append, Nat.add_right_comm, List.range'_append_1]

private theorem nodup_ids (c : Cursor) (p : Program) :
    ((laidElements (c.laids p)).map Element.id).Nodup := by
  rw [ids_laids]
  exact (List.nodup_range').map fun a b h => Supply.nth_inj.mp h

end Cursor

namespace Laid

variable {l : Laid}

private theorem out_mem_outputs {k : Kind} (h : k.isContact = true) : "out" ∈ k.outputs := by
  cases k <;> cases h <;> decide

private theorem in2_mem_inputs {k : Kind} (h : k.isGate = true) : "in2" ∈ k.inputs := by
  cases k <;> cases h <;> decide

theorem mem_wires {w : Connection} :
    w ∈ l.wires ↔ ∃ a, l.feeder = some a ∧
      (w = ⟨⟨a.id, a.kind.primaryOutput⟩, ⟨l.main.id, l.main.kind.primaryInput⟩⟩ ∨
        ∃ s, l.side = some s ∧ w = ⟨⟨s.id, "out"⟩, ⟨l.main.id, "in2"⟩⟩) := by
  unfold wires
  rcases l.feeder with _ | a
  · simp
  · simp [eq_comm]

theorem main_mem_elements (l : Laid) : l.main ∈ l.elements := by simp [elements]

theorem side_mem_elements {s : Element} (h : l.side = some s) : s ∈ l.elements := by
  simp [elements, h]

theorem carrier_sublist (l : Laid) : l.carrier.toList.Sublist l.elements := by
  unfold carrier elements
  split
  · exact List.nil_sublist _
  · exact List.sublist_append_right _ _

private theorem forward_wires {carrier : Option Element} (fits : l.Fits)
    (hfeeder : l.feeder = none ∨ l.feeder = carrier) {w : Connection} (hw : w ∈ l.wires) :
    ∃ a t, [a, t].Sublist (carrier.toList ++ l.elements) ∧
      w.source.element = a.id ∧ w.source.port ∈ a.outputs ∧
      w.target.element = t.id ∧ w.target.port ∈ t.inputs := by
  obtain ⟨a, ha, rfl | ⟨s, hs, rfl⟩⟩ := mem_wires.mp hw
  · have hcarrier : carrier = some a := by
      rcases hfeeder with h | h
      · rw [ha] at h
        cases h
      · rw [← h, ha]
    refine ⟨a, l.main, ?_, rfl, a.kind.primaryOutput_mem_outputs, rfl,
      l.main.kind.primaryInput_mem_inputs⟩
    rw [hcarrier]
    exact .cons_cons a (List.singleton_sublist.mpr (main_mem_elements l))
  · obtain ⟨hcontact, hgate⟩ := fits.side s hs
    refine ⟨s, l.main, ?_, rfl, ?_, rfl, ?_⟩
    · rw [elements, hs]
      exact List.sublist_append_right _ _
    · exact out_mem_outputs hcontact
    · exact in2_mem_inputs hgate

end Laid

/-- The wires run forward: each goes from an output of an element, or of the carrier, to an input of
one that is laid later. -/
theorem Linked.forward {carrier : Option Element} {ls : List Laid} (h : Linked carrier ls)
    {w : Connection} (hw : w ∈ laidWires ls) :
    ∃ a t, [a, t].Sublist (carrier.toList ++ laidElements ls) ∧
      w.source.element = a.id ∧ w.source.port ∈ a.outputs ∧
      w.target.element = t.id ∧ w.target.port ∈ t.inputs := by
  induction h with
  | nil carrier => cases hw
  | @cons carrier l rest fits hfeeder _ ih =>
    rcases List.mem_append.mp hw with hw | hw
    · obtain ⟨a, t, hsub, ends⟩ := Laid.forward_wires fits hfeeder hw
      refine ⟨a, t, hsub.trans ?_, ends⟩
      exact (List.Sublist.refl _).append (List.sublist_append_left _ _)
    · obtain ⟨a, t, hsub, ends⟩ := ih hw
      refine ⟨a, t, hsub.trans ?_, ends⟩
      exact (l.carrier_sublist.append (.refl _)).trans (List.sublist_append_right _ _)

theorem exists_main_of_mem {ls : List Laid} {w : Connection} (hw : w ∈ laidWires ls) :
    ∃ l ∈ ls, w.target.element = l.main.id := by
  obtain ⟨l, hl, hw⟩ := List.mem_flatMap.mp hw
  obtain ⟨a, -, rfl | ⟨s, -, rfl⟩⟩ := Laid.mem_wires.mp hw
  · exact ⟨l, hl, rfl⟩
  · exact ⟨l, hl, rfl⟩

/-- Networks that consist of pieces laid one after the other, with distinct ids. -/
structure Network.IsLaid (n : Network) (ls : List Laid) : Prop where
  elements : n.elements = laidElements ls
  connections : n.connections = laidWires ls
  linked : Linked none ls
  nodup : (n.elements.map Element.id).Nodup

theorem Network.IsLaid.coherent {n : Network} {ls : List Laid} (h : n.IsLaid ls) : n.Coherent := by
  refine ⟨h.nodup, fun w hw => ?_, fun w hw => ?_⟩
  · obtain ⟨a, t, hsub, ha, hport, -⟩ := h.linked.forward (h.connections ▸ hw)
    exact ⟨a, h.elements ▸ hsub.subset (by simp), ha.symm, hport⟩
  · obtain ⟨a, t, hsub, -, -, ht, hport⟩ := h.linked.forward (h.connections ▸ hw)
    exact ⟨t, h.elements ▸ hsub.subset (by simp), ht.symm, hport⟩

namespace Program

def laids (p : Program) (supply : Supply) : List Laid := ({ supply := supply } : Cursor).laids p

private theorem linked_laids (p : Program) (supply : Supply) : Linked none (p.laids supply) :=
  Cursor.linked_laids { supply := supply } p

theorem isLaid (p : Program) (supply : Supply) (id : String) :
    Network.IsLaid ⟨id, laidElements (p.laids supply), laidWires (p.laids supply)⟩
      (p.laids supply) :=
  ⟨rfl, rfl, p.linked_laids supply, Cursor.nodup_ids _ p⟩

theorem coherent_laids (p : Program) (supply : Supply) (id : String) :
    (Network.mk id (laidElements (p.laids supply)) (laidWires (p.laids supply))).Coherent :=
  (p.isLaid supply id).coherent

/-- Building never fails. -/
theorem build_eq (p : Program) (supply : Supply) : ∃ id next,
    p.build supply =
      (.ok ⟨id, laidElements (p.laids supply), laidWires (p.laids supply)⟩, next) := by
  have hrun := Cursor.run_eq { supply := supply } p
  rcases hlast : ({ supply := supply } : Cursor).run p with ⟨piece, last⟩
  rw [hlast] at hrun
  have body := (Network.coherent_iff _).mp (p.coherent_laids supply last.supply.draw.1)
  have named : (Value.text last.supply.draw.1).name? = some last.supply.draw.1 := by
    simp [Value.name?, Supply.draw, Supply.isName_nth]
  refine ⟨last.supply.draw.1, last.supply.draw.2, ?_⟩
  simp only [build, hlast, hrun, Network.check, Network.make]
  rw [named, ← laids, body]

end Program

end RungLogic
