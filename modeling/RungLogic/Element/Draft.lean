import RungLogic.Element

/-!
Drafts: elements as they are asked for, with any values in any place. A draft is checked as a whole,
and either makes an element or gives the list of everything that is wrong with it.
-/

set_option autoImplicit false
set_option relaxedAutoImplicit false

namespace RungLogic

/-- Where a value asks an element to stand: a record gives two coordinates. -/
def Placement.ofValue : Value → Placement
  | .record fields => .coords (Value.field "x" fields) (Value.field "y" fields)
  | v => .other v

/-- The placement of at most two coordinates; those that are missing are one. -/
def Placement.ofCoordinates : List Value → Except Error Placement
  | [] => .ok (.coords (.int 1) (.int 1))
  | [x] => .ok (.coords x (.int 1))
  | [x, y] => .ok (.coords x y)
  | _ => .error .shape

/-- The position that a placement stands for, if both coordinates are numbers. -/
def Placement.position? : Placement → Option Position
  | .coords (.num x) (.num y) => some ⟨x, y⟩
  | _ => none

namespace Element

/-- Properties as they are asked for: any value may stand for a name. -/
abbrev RawProperties := List (Value × Value)

/-- Enters a property; one of the same name is replaced where it stands. -/
def RawProperties.put (key value : Value) : RawProperties → RawProperties
  | [] => [(key, value)]
  | (k, v) :: rest =>
    if k.same key then (k, value) :: rest else (k, v) :: RawProperties.put key value rest

def RawProperties.ofTable (t : Table Value) : RawProperties := t.map fun p => (.text p.1, p.2)

def RawProperties.field (name : String) : RawProperties → Value
  | [] => .null
  | (.text k, v) :: rest => if k = name then v else RawProperties.field name rest
  | _ :: rest => RawProperties.field name rest

def RawProperties.table? : RawProperties → Option (Table Value)
  | [] => some []
  | (k, v) :: rest => do
    let name ← k.text?
    let t ← RawProperties.table? rest
    return (name, v) :: t

/-- An element as it is asked for; without properties at all when what is given for them is no
record. -/
structure Draft where
  id : Value
  kind : Value
  position : Placement
  inputs : List Value
  outputs : List Value
  properties : Option RawProperties

def kindOf? (v : Value) : Option Kind := v.text?.bind Kind.ofName?

def portFaults (side : Side) (kind : Option Kind) (ports : List Value) : List Fault :=
  if !ports.all Value.isName then [.unnamedPorts side ports]
  else match kind with
    | some k =>
      if ports.map Value.text? = (k.ports side).map some then [] else [.wrongPorts side k ports]
    | none => []

/-- Whether a value may stand for a preset or an operand: a text, a number or nothing. -/
def isQuantity : Value → Bool
  | .null | .text _ | .num _ => true
  | _ => false

/-- Whether a value may stand for a variable: a text or nothing. -/
def isReference : Value → Bool
  | .null | .text _ => true
  | _ => false

def propertyFaults (ps : RawProperties) : List Fault :=
  (ps.filter fun p => p.1.text?.isNone).map (fun p => .keyNotText p.1) ++
    (if isReference (ps.field "variable") then [] else [.variableNotText (ps.field "variable")]) ++
    (if isQuantity (ps.field "preset") then []
      else [.notTextOrNumber "preset" (ps.field "preset")]) ++
    (if isQuantity (ps.field "operand") then []
      else [.notTextOrNumber "operand" (ps.field "operand")])

def Draft.faults (d : Draft) : List Fault :=
  (if d.id.isName then [] else [.elementUnnamed]) ++
    (if (kindOf? d.kind).isSome then [] else [.unknownKind d.kind]) ++
    (if d.position.position?.isSome then [] else [.unplaced d.position]) ++
    portFaults .inputs (kindOf? d.kind) d.inputs ++
    portFaults .outputs (kindOf? d.kind) d.outputs ++
    (match d.properties with
      | some ps => propertyFaults ps
      | none => [.propertiesNotRecord])

def Draft.element? (d : Draft) : Option Element := do
  let id ← d.id.name?
  let kind ← kindOf? d.kind
  let position ← d.position.position?
  let properties ← d.properties.bind RawProperties.table?
  return ⟨id, kind, position, properties⟩

def Draft.check (d : Draft) : Except (List Fault) Element :=
  match d.faults, d.element? with
  | [], some e => .ok e
  | faults, _ => .error faults

def draft (e : Element) : Draft :=
  { id := .text e.id
    kind := .text e.kind.name
    position := .coords (.num e.position.x) (.num e.position.y)
    inputs := e.inputs.map .text
    outputs := e.outputs.map .text
    properties := some (RawProperties.ofTable e.properties) }

def Valid (e : Element) : Prop := e.draft.faults = []

instance (e : Element) : Decidable e.Valid := inferInstanceAs (Decidable (e.draft.faults = []))

/-- The parts of an element that is made anew from any values: the two sides may be given by any
value that has parts. -/
def make (id kind : Value) (position : Placement) (inputs outputs properties : Value) :
    Except Error Element :=
  match inputs.parts?, outputs.parts? with
  | some inputs, some outputs =>
    let properties := match properties with
      | .record fields => some (RawProperties.ofTable fields)
      | _ => none
    let d : Draft := ⟨id, kind, position, inputs, outputs, properties⟩
    d.check.mapError (.invalid .element)
  | _, _ => .error .shape

end Element

end RungLogic
