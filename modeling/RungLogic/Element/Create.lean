import RungLogic.Element.Draft
import RungLogic.Supply

/-!
Elements created on request: the kind gives the ports, a fresh id is drawn where none is given, and
what is left out or empty takes its default.
-/

set_option autoImplicit false
set_option relaxedAutoImplicit false

namespace RungLogic.Element

/-- What is asked of a new element. -/
structure Request where
  kind : Value
  position : Value := .null
  properties : Value := .null
  id : Value := .null

/-- Enters pairs of a name and a value, each given by a value with two parts; `index` counts the
pairs. -/
def enterPairs (index : Nat) (entered : RawProperties) : List Value → Except Error RawProperties
  | [] => .ok entered
  | item :: rest => match item.parts? with
    | none => .error .shape
    | some [key, value] =>
      if key.canBeKey then enterPairs (index + 1) (entered.put key value) rest else .error .shape
    | some parts => .error (.value (.notAPair index parts.length))

/-- The properties that a value asks for: nothing, a record, or pairs. -/
def requestedProperties (v : Value) : Except Error RawProperties :=
  if !v.truthy then .ok []
  else match v with
    | .record fields => .ok (RawProperties.ofTable fields)
    | _ => match v.parts? with
      | some items => enterPairs 0 [] items
      | none => .error .shape

/-- The placement that a value asks for; nothing asks for the first place. -/
def requestedPlacement (v : Value) : Placement :=
  if v.truthy then Placement.ofValue v else .coords (.int 1) (.int 1)

/-- The id that a value asks for; nothing asks for a fresh one. -/
def requestedId (v : Value) (supply : Supply) : Value × Supply :=
  if v.truthy then (v, supply)
  else
    let (id, supply) := supply.draw
    (.text id, supply)

def Request.draft (r : Request) (id : Value) (properties : RawProperties) : Draft :=
  let ports (side : Side) : List Value := match kindOf? r.kind with
    | some k => (k.ports side).map .text
    | none => []
  { id := id
    kind := r.kind
    position := requestedPlacement r.position
    inputs := ports .inputs
    outputs := ports .outputs
    properties := some properties }

/-- Creates an element. An id that has been drawn is used up even if the element is refused. -/
def create (r : Request) (supply : Supply) : Except Error Element × Supply :=
  if !r.kind.canBeKey then (.error .shape, supply)
  else
    let (id, supply) := requestedId r.id supply
    let result := do
      let properties ← requestedProperties r.properties
      (r.draft id properties).check.mapError (.invalid .element)
    (result, supply)

end RungLogic.Element
