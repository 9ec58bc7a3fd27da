import RungLogic.Proofs.Build.ForwardChain

/-!
Programs built rung by rung. Behind a store nothing of the cursor is left but its row and the ids that it has
drawn. So what comes behind a store is laid as it would be laid alone, further down and under later ids.
-/

set_option autoImplicit false
set_option relaxedAutoImplicit false

namespace RungLogic

/-- Operators that end a rung. -/
def Operator.stores : Operator → Bool
  | .st | .stn => true
  | _ => false

namespace Program

/-- How many instructions of a program end a rung. -/
def stores (p : Program) : Nat := p.countP fun i => i.operator.stores

def supported (p : Program) : Program := p.filter fun i => i.operator.cell?.isSome

/-- The last instruction with a counterpart in a ladder is a store, if there is one. -/
def EndsRung (p : Program) : Prop := ∀ i ∈ p.supported.getLast?, i.operator.stores = true

end Program

/-- The same element under another id, that many rows further down. -/
structure Element.Lowered (rename : String → String) (rows : Nat) (e d : Element) : Prop where
  id : d.id = rename e.id
  kind : d.kind = e.kind
  column : d.position.x = e.position.x
  row : e.position.y.add? (.int rows) = some d.position.y
  properties : d.properties = e.properties

/-- A network that consists of two others, the second one that many rows further down, with the elements and
the wires of the first before those of the second. Both go under other ids, and no two elements get the same
one. -/
structure Network.Stacked (n upper lower : Network) (rows : Nat) : Prop where
  distinct : (n.elements.map Element.id).Nodup
  parts : ∃ (f g : String → String) (above below : List Element),
    n.elements = above ++ below ∧
    List.Forall₂ (Element.Lowered f 0) upper.elements above ∧
    List.Forall₂ (Element.Lowered g rows) lower.elements below ∧
    n.connections = upper.connections.map (.renamed f) ++ lower.connections.map (.renamed g)

def Position.lowered (rows : Nat) (p : Position) : Position :=
  { p with y := (p.y.add? (.int rows)).getD p.y }

def Element.lowered (rename : String → String) (rows : Nat) (e : Element) : Element :=
  ⟨rename e.id, e.kind, e.position.lowered rows, e.properties⟩

private theorem Element.IsPlain.lowered {e : Element} (h : e.IsPlain) (rename : String → String)
    (rows : Nat) :
    e.Lowered rename rows (e.lowered rename rows) := by
  obtain ⟨x, y, place⟩ := h.whole
  refine ⟨rfl, rfl, rfl, ?_, rfl⟩
  simp only [Element.lowered, Position.lowered, place, Number.add?_int, Option.getD_some]

private theorem Supply.exists_rename (a b : Nat) :
    ∃ rename : String → String, ∀ k, rename (nth (a + k)) = nth (b + k) := by
  have injective : Function.Injective fun k => nth (a + k) := fun i j same => by
    have drawn := nth_inj.mp same
    omega
  exact ⟨Function.extend (fun k => nth (a + k)) (fun k => nth (b + k)) id, injective.extend_apply _ _⟩

namespace Cursor

/-- Two cursors that lay the same, the second one that many rows further down and under other ids. -/
structure Shifted (rename : String → String) (rows : Nat) (c c' : Cursor) : Prop where
  carrier : c'.carrier = c.carrier.map (Element.lowered rename rows)
  column : c'.column = c.column
  row : c'.row = c.row + rows
  ids : ∀ k, rename (Supply.nth (c.supply.drawn + k)) = Supply.nth (c'.supply.drawn + k)

section Shifts

variable {rename : String → String} {rows : Nat} {c c' : Cursor}

private theorem Shifted.element (h : Shifted rename rows c c') (kind : Kind) (ahead : Nat)
    (properties : Table Value) :
    (c'.element kind ahead properties).1 = (c.element kind ahead properties).1.lowered rename rows ∧
      Shifted rename rows (c.element kind ahead properties).2 (c'.element kind ahead properties).2 := by
  have id : Supply.nth (c'.supply.drawn + 1) = rename (Supply.nth (c.supply.drawn + 1)) := (h.ids 1).symm
  refine ⟨?_, h.carrier, h.column, h.row, fun k => ?_⟩
  · simp only [Cursor.element, Supply.draw, Element.lowered, Position.lowered, id, h.column, h.row,
      Number.add?_int, Option.getD_some, Int.natCast_add]
  · have later := h.ids (1 + k)
    rwa [← Nat.add_assoc, ← Nat.add_assoc] at later

private theorem Shifted.carry (h : Shifted rename rows c c') {e d : Element}
    (lowered : d = e.lowered rename rows)
    (columns : Nat) : Shifted rename rows (c.carry e columns) (c'.carry d columns) :=
  ⟨congrArg some lowered, congrArg (· + columns) h.column, h.row, h.ids⟩

private theorem Shifted.nextRung (h : Shifted rename rows c c') :
    Shifted rename rows c.nextRung c'.nextRung :=
  ⟨rfl, rfl, by rw [Cursor.nextRung, Cursor.nextRung, h.row, Nat.add_right_comm], h.ids⟩

private theorem Shifted.lay (h : Shifted rename rows c c') (operand : Option String) (cell : Cell) :
    c'.laid operand cell = (c.laid operand cell).map (Element.lowered rename rows) ∧
      Shifted rename rows (c.lay operand cell).2 (c'.lay operand cell).2 := by
  have single (kind : Kind) (properties : Table Value) := h.element kind 0 properties
  cases cell with
  | load kind =>
    obtain ⟨main, next⟩ := single kind (reference operand)
    exact ⟨by simp [laid, Laid.map, main], next.carry main 2⟩
  | store kind =>
    obtain ⟨main, next⟩ := single kind (reference operand)
    exact ⟨by simp [laid, Laid.map, main, h.carrier], next.nextRung⟩
  | gate side kind =>
    obtain ⟨contact, between⟩ := single side (reference operand)
    obtain ⟨main, next⟩ := between.element kind 2 []
    exact ⟨by simp [laid, Laid.map, contact, main, h.carrier], next.carry main 4⟩
  | invert =>
    obtain ⟨main, next⟩ := single .not []
    exact ⟨by simp [laid, Laid.map, main, h.carrier], next.carry main 2⟩
  | preset kind fallback =>
    obtain ⟨main, next⟩ := single kind [("preset", .text (orElse operand fallback))]
    exact ⟨by simp [laid, Laid.map, main, h.carrier], next.carry main 3⟩
  | operand kind =>
    obtain ⟨main, next⟩ := single kind [("operand", .ofText? operand)]
    exact ⟨by simp [laid, Laid.map, main, h.carrier], next.carry main 3⟩

/-- A program lays the same from both cursors. -/
private theorem Shifted.laids (h : Shifted rename rows c c') (p : Program) :
    c'.laids p = (c.laids p).map (Laid.map (Element.lowered rename rows)) := by
  induction p generalizing c c' with
  | nil => rfl
  | cons i rest ih =>
    rcases hcell : i.operator.cell? with _ | cell
    · simp only [Cursor.laids, hcell]
      exact ih h
    · obtain ⟨piece, next⟩ := h.lay i.operand cell
      simp only [Cursor.laids, hcell, List.map_cons, piece, ih next]

end Shifts

private theorem run_append (c : Cursor) (p q : Program) : (c.run (p ++ q)).2 = ((c.run p).2.run q).2 := by
  induction p generalizing c with
  | nil => rfl
  | cons i rest ih => exact ih (c.step i).2

private theorem laids_append (c : Cursor) (p q : Program) :
    c.laids (p ++ q) = c.laids p ++ (c.run p).2.laids q := by
  induction p generalizing c with
  | nil => rfl
  | cons i rest ih =>
    rcases hcell : i.operator.cell? with _ | cell
    · simp only [List.cons_append, laids, run, step, hcell, ih]
    · simp only [List.cons_append, laids, run, step, hcell, ih]

private theorem row_run (c : Cursor) (p : Program) : (c.run p).2.row = c.row + 2 * p.stores := by
  have step (c : Cursor) (i : Instruction) :
      (c.step i).2.row = c.row + if i.operator.stores then 2 else 0 := by
    rcases hoperator : i.operator <;> simp [Cursor.step, hoperator, Operator.cell?, Operator.stores, lay,
      block, element, carry, nextRung]
  induction p generalizing c with
  | nil => rfl
  | cons i rest ih =>
    have later : (c.run (i :: rest)).2.row = (c.step i).2.row + 2 * Program.stores rest := ih (c.step i).2
    rw [later, step, Program.stores, Program.stores, List.countP_cons]
    split <;> omega

private theorem run_of_endsRung {p : Program} (ends : p.EndsRung) (supply : Supply) :
    let c := (({ supply := supply } : Cursor).run p).2
    c.carrier = none ∧ c.column = 1 := by
  induction p using List.reverseRecOn with
  | nil => exact ⟨rfl, rfl⟩
  | append_singleton p i ih =>
    rw [run_append]
    rcases hcell : i.operator.cell? with _ | cell
    · have rest : Program.EndsRung p := by
        simpa [Program.EndsRung, Program.supported, hcell] using ends
      simpa [run, step, hcell] using ih rest
    · have stores : i.operator.stores = true := by
        simpa [Program.EndsRung, Program.supported, hcell] using ends
      rcases hoperator : i.operator <;> rw [hoperator] at stores <;> cases stores <;>
        simp [run, step, hoperator, Operator.cell?, lay, nextRung]

end Cursor

namespace Program

private theorem lowered_elements {p : Program} {supply : Supply} {n : Network}
    (built : (p.build supply).1 = .ok n) (rename : String → String) (rows : Nat) :
    List.Forall₂ (Element.Lowered rename rows) n.elements
      (n.elements.map (Element.lowered rename rows)) :=
  List.forall₂_map_right_iff.mpr <| List.forall₂_same.mpr fun e he =>
    (isPlain_of_build built e he).lowered rename rows

/-- Building is modular at the end of a rung. Whatever ids are drawn, a program that ends its last rung and
another one behind it build what the two build alone, one behind the other, with the second one two rows
further down for each store of the first. -/
theorem build_append {p : Program} (ends : p.EndsRung) (q : Program) (s t u : Supply) :
    ∃ upper lower n, (p.build s).1 = .ok upper ∧ (q.build t).1 = .ok lower ∧
      ((p ++ q).build u).1 = .ok n ∧ n.Stacked upper lower (2 * p.stores) := by
  obtain ⟨pid, _, pbuilt⟩ := p.build_eq s
  obtain ⟨qid, _, qbuilt⟩ := q.build_eq t
  obtain ⟨id, _, built⟩ := (p ++ q).build_eq u
  have upper := congrArg Prod.fst pbuilt
  have lower := congrArg Prod.fst qbuilt
  have kinds (rename : String → String) (rows : Nat) (e : Element) :
      (e.lowered rename rows).kind = e.kind := rfl
  refine ⟨_, _, _, upper, lower, congrArg Prod.fst built, ⟨((p ++ q).isLaid u id).nodup, ?_⟩⟩
  -- the cursor of the first program, and the one that it leaves to the second
  obtain ⟨f, first⟩ := Supply.exists_rename s.drawn u.drawn
  have above : Cursor.Shifted f 0 { supply := s } { supply := u } := ⟨rfl, rfl, rfl, first⟩
  let behind := (({ supply := u } : Cursor).run p).2
  obtain ⟨g, second⟩ := Supply.exists_rename t.drawn behind.supply.drawn
  obtain ⟨carrier, column⟩ := Cursor.run_of_endsRung ends u
  have below : Cursor.Shifted g (2 * p.stores) { supply := t } behind :=
    ⟨carrier, column, Cursor.row_run _ p, second⟩
  have laids : (p ++ q).laids u = (p.laids s).map (Laid.map (Element.lowered f 0)) ++
      (q.laids t).map (Laid.map (Element.lowered g (2 * p.stores))) := by
    rw [Program.laids, Cursor.laids_append, above.laids, below.laids]
    rfl
  refine ⟨f, g, _, _, ?_, lowered_elements upper f 0, lowered_elements lower g (2 * p.stores), ?_⟩
  · rw [← laidElements_map, ← laidElements_map, laids, laidElements, List.flatMap_append]
    rfl
  · rw [← laidWires_map (fun _ => rfl) (kinds f 0), ← laidWires_map (fun _ => rfl) (kinds g (2 * p.stores)),
      laids, laidWires, List.flatMap_append]
    rfl

/-- A bell behind the door, which has two stores; the operator between the two has no counterpart. -/
theorem bell_behind_door :
    let p : Program := door ++ [⟨.xor, some "KEY1", none⟩]
    let q : Program := [⟨.ld, some "BUTTON", none⟩, ⟨.ton, some "T#2s", none⟩, ⟨.stn, some "BELL", none⟩]
    p.EndsRung ∧ ∃ upper lower n, (p.build {}).1 = .ok upper ∧ (q.build ⟨7⟩).1 = .ok lower ∧
      ((p ++ q).build ⟨3⟩).1 = .ok n ∧ n.Stacked upper lower 4 := by
  intro p q
  have last : p.supported.getLast? = some ⟨.stn, some "ALARM", none⟩ := rfl
  have ends : p.EndsRung := by
    intro i hi
    obtain rfl := Option.some.inj (last.symm.trans hi)
    rfl
  exact ⟨ends, build_append ends q {} ⟨7⟩ ⟨3⟩⟩

end Program

end RungLogic
