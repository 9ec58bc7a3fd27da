import RungLogic.Instruction
import RungLogic.Network
import RungLogic.Notice
import RungLogic.Supply

/-!
Networks built from programs. A cursor goes through the program with the element that carries the
rung so far; each instruction lays its elements at the cursor, wires them to that element and moves
the cursor on. A store ends the rung. Operators without a counterpart in a ladder are passed over
with a notice.
-/

set_option autoImplicit false
set_option relaxedAutoImplicit false

namespace RungLogic

/-- What an operator lays into a ladder. -/
inductive Cell where
  /-- A contact that begins a rung. -/
  | load (kind : Kind)
  /-- A coil that ends a rung. -/
  | store (kind : Kind)
  /-- A block that joins a contact to the rung. -/
  | gate (side block : Kind)
  /-- A block that negates the rung. -/
  | invert
  /-- A timer or counter; a missing preset is replaced. -/
  | preset (block : Kind) (fallback : String)
  /-- A block that takes the operand as its second side. -/
  | operand (block : Kind)
  deriving DecidableEq, Repr

/-- What an operator lays, if it has a counterpart in a ladder. -/
def Operator.cell? : Operator → Option Cell
  | .ld => some (.load .contact)
  | .ldn => some (.load .contactNegated)
  | .st => some (.store .coil)
  | .stn => some (.store .coilNegated)
  | .and => some (.gate .contact .and)
  | .andn => some (.gate .contactNegated .and)
  | .or => some (.gate .contact .or)
  | .orn => some (.gate .contactNegated .or)
  | .not => some .invert
  | .ton => some (.preset .timerOn "T#1s")
  | .tof => some (.preset .timerOff "T#1s")
  | .ctu => some (.preset .counterUp "10")
  | .ctd => some (.preset .counterDown "10")
  | .add => some (.operand .add)
  | .sub => some (.operand .subtract)
  | .mul => some (.operand .multiply)
  | .div => some (.operand .divide)
  | .gt => some (.operand .greaterThan)
  | .ge => some (.operand .greaterEqual)
  | .eq => some (.operand .equal)
  | .ne => some (.operand .notEqual)
  | .le => some (.operand .lessEqual)
  | .lt => some (.operand .lessThan)
  | .xor | .tp | .ctud | .r | .s => none

/-- Where the next element is laid, and the element that carries the rung so far. -/
structure Cursor where
  carrier : Option Element := none
  column : Nat := 1
  row : Nat := 1
  supply : Supply := {}

/-- Elements and wires in the order in which they are laid. -/
structure Piece where
  elements : List Element := []
  connections : List Connection := []

def Piece.append (a b : Piece) : Piece :=
  ⟨a.elements ++ b.elements, a.connections ++ b.connections⟩

instance : Append Piece := ⟨Piece.append⟩

namespace Cursor

def element (c : Cursor) (kind : Kind) (ahead : Nat) (properties : Table Value) :
    Element × Cursor :=
  let (id, supply) := c.supply.draw
  (⟨id, kind, ⟨.int (c.column + ahead : Nat), .int c.row⟩, properties⟩, { c with supply := supply })

def wire (c : Cursor) (target : Element) (port : String) : List Connection :=
  match c.carrier with
  | some e => [⟨⟨e.id, e.kind.primaryOutput⟩, ⟨target.id, port⟩⟩]
  | none => []

def carry (c : Cursor) (e : Element) (columns : Nat) : Cursor :=
  { c with carrier := some e, column := c.column + columns }

def nextRung (c : Cursor) : Cursor := { c with carrier := none, column := 1, row := c.row + 2 }

def block (c : Cursor) (kind : Kind) (properties : Table Value) (columns : Nat) : Piece × Cursor :=
  let (e, next) := c.element kind 0 properties
  (⟨[e], c.wire e kind.primaryInput⟩, next.carry e columns)

def reference (operand : Option String) : Table Value := [("variable", .ofText? operand)]

/-- The text of an operand, or the fallback when it is missing or empty. -/
def orElse (operand : Option String) (fallback : String) : String :=
  match operand with
  | some s => if s = "" then fallback else s
  | none => fallback

def lay (c : Cursor) (operand : Option String) : Cell → Piece × Cursor
  | .load kind =>
    let (e, next) := c.element kind 0 (reference operand)
    (⟨[e], []⟩, next.carry e 2)
  | .store kind =>
    let (e, next) := c.element kind 0 (reference operand)
    (⟨[e], c.wire e "in"⟩, next.nextRung)
  | .gate side kind =>
    let (e, next) := c.element side 0 (reference operand)
    let (b, next) := next.element kind 2 []
    let wires := match c.carrier with
      | some _ => c.wire b "in1" ++ [⟨⟨e.id, "out"⟩, ⟨b.id, "in2"⟩⟩]
      | none => []
    (⟨[e, b], wires⟩, next.carry b 4)
  | .invert => c.block .not [] 2
  | .preset kind fallback => c.block kind [("preset", .text (orElse operand fallback))] 3
  | .operand kind => c.block kind [("operand", .ofText? operand)] 3

/-- Lays an instruction; one without a cell lays nothing. -/
def step (c : Cursor) (i : Instruction) : Piece × Cursor :=
  match i.operator.cell? with
  | some cell => c.lay i.operand cell
  | none => ({}, c)

def run (c : Cursor) : Program → Piece × Cursor
  | [] => ({}, c)
  | i :: rest =>
    let (piece, next) := c.step i
    let (pieces, last) := next.run rest
    (piece ++ pieces, last)

end Cursor

namespace Program

/-- The instructions that have no counterpart in a ladder, as notices. -/
def skipped (p : Program) : List Notice :=
  p.filterMap fun i => match i.operator.cell? with
    | some _ => none
    | none => some (.unsupported i.operator)

/-- Builds a network; its id is drawn after those of the elements. -/
def build (p : Program) (supply : Supply) : Except Error Network × Supply :=
  let (piece, last) := ({ supply := supply } : Cursor).run p
  let (id, supply) := last.supply.draw
  ((Network.mk id piece.elements piece.connections).check, supply)

end Program

end RungLogic
