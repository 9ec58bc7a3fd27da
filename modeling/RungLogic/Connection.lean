import RungLogic.Error

/-!
Connections: directed wires from an output port of one element to an input port of another.
-/

set_option autoImplicit false
set_option relaxedAutoImplicit false

namespace RungLogic

/-- A port of an element. -/
structure PortEnd where
  element : String
  port : String
  deriving DecidableEq, Repr

/-- A wire. -/
structure Connection where
  source : PortEnd
  target : PortEnd
  deriving DecidableEq, Repr

namespace Connection

def endFaults (side : End) (element port : Value) : List Fault :=
  (if element.isName then [] else [.endElementUnnamed side]) ++
    (if port.isName then [] else [.endPortUnnamed side])

/-- The wire between two ends given by any values, or all that is wrong with them. -/
def ofValues (source sourcePort target targetPort : Value) : Except (List Fault) Connection :=
  match source.name?, sourcePort.name?, target.name?, targetPort.name? with
  | some s, some sp, some t, some tp => .ok ⟨⟨s, sp⟩, ⟨t, tp⟩⟩
  | _, _, _, _ =>
    .error (endFaults .source source sourcePort ++ endFaults .target target targetPort)

def make (source sourcePort target targetPort : Value) : Except Error Connection :=
  (ofValues source sourcePort target targetPort).mapError (.invalid .connection)

def parts (c : Connection) : List String :=
  [c.source.element, c.source.port, c.target.element, c.target.port]

def Valid (c : Connection) : Prop := ∀ name ∈ c.parts, Text.isName name = true

instance (c : Connection) : Decidable c.Valid :=
  inferInstanceAs (Decidable (∀ name ∈ c.parts, Text.isName name = true))

end Connection

end RungLogic
