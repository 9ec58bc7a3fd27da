import RungLogic.Error

/-!
Elements: the nodes of a ladder network. An element has an id, a kind that fixes its ports, a
position without effect on what it computes, and properties, of which the variable, the preset and
the operand have a meaning.
-/

set_option autoImplicit false
set_option relaxedAutoImplicit false

namespace RungLogic

/-- Coordinates in the layout. -/
structure Position where
  x : Number := .int 1
  y : Number := .int 1

/-- A node of a network: a contact, a coil or a block. -/
structure Element where
  id : String
  kind : Kind
  position : Position := {}
  properties : Table Value := []

namespace Element

def inputs (e : Element) : List String := e.kind.inputs

def outputs (e : Element) : List String := e.kind.outputs

def reference? (e : Element) : Option String := (Value.field "variable" e.properties).text?

/-- The preset of a timer or a counter; null when there is none. -/
def preset (e : Element) : Value := Value.field "preset" e.properties

/-- The second operand of a block; null when there is none. -/
def operand (e : Element) : Value := Value.field "operand" e.properties

def title (e : Element) : String := e.kind.name ++ "[" ++ e.id ++ "]"

/-- The property that tells most about the element: its variable, else its preset, else its operand.
-/
def tag? (e : Element) : Option Value :=
  (["variable", "preset", "operand"].map fun name => Value.field name e.properties).find? fun
    | .null => false
    | _ => true

def label (e : Element) : String :=
  match e.tag? with
  | some v => e.kind.name ++ " " ++ v.plain
  | none => e.kind.name

def toldLabel (e : Element) : Except Error String :=
  if e.tag?.any Value.isLong then .error (.value .unwritable) else .ok e.label

end Element

end RungLogic
