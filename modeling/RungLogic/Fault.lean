import RungLogic.Kind
import RungLogic.Value

/-!
Faults: the reasons why an instruction, a variable, an element, a connection, a network or a
document is refused. A check lists all faults it finds, in a fixed order; the wording of each stands
here.
-/

set_option autoImplicit false
set_option relaxedAutoImplicit false

namespace RungLogic

/-- The types of simulation variables. -/
inductive VarType where
  | bool | int | real | time
  deriving DecidableEq, Repr

namespace VarType

def name : VarType → String
  | bool => "BOOL"
  | int => "INT"
  | real => "REAL"
  | time => "TIME"

def ofName? (word : String) : Option VarType :=
  [bool, int, real, time].find? fun t => t.name = word

end VarType

/-- Where an element is asked to stand: at two coordinates, or at something that has none. -/
inductive Placement where
  | coords (x y : Value)
  | other (given : Value)

def Placement.shown : Placement → String
  | .coords x y => "Position(x=" ++ x.shown ++ ", y=" ++ y.shown ++ ")"
  | .other given => given.shown

/-- The two sides of an element. -/
inductive Side where
  | inputs | outputs
  deriving DecidableEq, Repr

def Side.name : Side → String
  | .inputs => "inputs"
  | .outputs => "outputs"

def Kind.ports (k : Kind) : Side → List String
  | .inputs => k.inputs
  | .outputs => k.outputs

/-- The two ends of a connection. -/
inductive End where
  | source | target
  deriving DecidableEq, Repr

def End.name : End → String
  | .source => "source"
  | .target => "target"

/-- Why a part of a program or network is refused. -/
inductive Fault where
  | unknownOperator (given : Value)
  | operandNotText (given : Value)
  | modifierUnnamed (given : Value)
  | variableUnnamed
  | unknownType (given : Value)
  | unfitValue (type : VarType) (name given : Value)
  | elementUnnamed
  | unknownKind (given : Value)
  | unplaced (given : Placement)
  | unnamedPorts (side : Side) (given : List Value)
  | wrongPorts (side : Side) (kind : Kind) (given : List Value)
  | propertiesNotRecord
  | keyNotText (given : Value)
  | variableNotText (given : Value)
  | notTextOrNumber (property : String) (given : Value)
  | endElementUnnamed (side : End)
  | endPortUnnamed (side : End)
  | networkUnnamed
  | repeatedElement (id : String)
  | unknownEnd (index : Nat) (side : End) (id : String)
  | notAPort (index : Nat) (side : End) (port : String) (kind : Kind) (id : String)

def VarType.misfit : VarType → String
  | .bool => "has non-boolean value "
  | .int => "has non-integer value "
  | .real => "has non-numeric value "
  | .time => "has invalid value "

def shownPorts (ports : List String) : String := (Value.list (ports.map .text)).shown

def Fault.message : Fault → String
  | .unknownOperator given => "operator " ++ given.shown ++ " is not a known IL operator"
  | .operandNotText given => "operand must be a string, got " ++ given.kindName
  | .modifierUnnamed given => "modifier must be a non-empty string, got " ++ given.shown
  | .variableUnnamed => "name must be a non-empty string"
  | .unknownType given => "type " ++ given.shown ++ " must be one of BOOL, INT, REAL, TIME"
  | .unfitValue type name given =>
    type.name ++ " variable '" ++ name.plain ++ "' " ++ type.misfit ++ given.shown
  | .elementUnnamed => "id must be a non-empty string"
  | .unknownKind given => "element_type " ++ given.shown ++ " is not a known element type"
  | .unplaced given => "position must have numeric x and y, got " ++ given.shown
  | .unnamedPorts side given =>
    side.name ++ " must be non-empty port ids, got " ++ (Value.list given).shown
  | .wrongPorts side kind given =>
    side.name ++ " of " ++ kind.name ++ " must be " ++ shownPorts (kind.ports side) ++ ", got " ++
      (Value.list given).shown
  | .propertiesNotRecord => "properties must be a mapping"
  | .keyNotText given => "property key " ++ given.shown ++ " must be a string"
  | .variableNotText given => "property 'variable' must be a string, got " ++ given.shown
  | .notTextOrNumber property given =>
    "property '" ++ property ++ "' must be a string or number, got " ++ given.shown
  | .endElementUnnamed side => side.name ++ ".element must be a non-empty string"
  | .endPortUnnamed side => side.name ++ ".port must be a non-empty string"
  | .networkUnnamed => "network id must be a non-empty string"
  | .repeatedElement id => "duplicate element id '" ++ id ++ "'"
  | .unknownEnd index side id =>
    "connection " ++ toString index ++ ": unknown " ++ side.name ++ " element '" ++ id ++ "'"
  | .notAPort index side port kind id =>
    "connection " ++ toString index ++ ": '" ++ port ++ "' is not an " ++
      (match side with
        | .source => "output"
        | .target => "input") ++ " of " ++ kind.name ++ " '" ++ id ++ "'"

/-- Why an entry of a document is refused. -/
inductive EntryFault where
  | notARecord (given : Value)
  | missing (keys : List String)
  | operatorMissing
  | noPosition
  | notAPortList (side : Side)
  | noPort (side : Side) (index : Nat)
  | noEnd (side : End)
  | refused (fault : Fault)

/-- The wording of a fault of an entry, which follows the place of the entry. -/
def EntryFault.message : EntryFault → String
  | .notARecord given => ": expected an object, got " ++ given.kindName
  | .missing keys => ": missing " ++ ", ".intercalate keys
  | .operatorMissing => ": missing 'operator'"
  | .noPosition => ".position: expected an object with x and y"
  | .notAPortList side =>
    "." ++ side.name ++ ": expected a list of \x7b\"id\": ...\x7d objects"
  | .noPort side index =>
    "." ++ side.name ++ "[" ++ toString index ++ "]: expected an object with 'id'"
  | .noEnd side => "." ++ side.name ++ ": expected an object with element and port"
  | .refused fault => ": " ++ fault.message

/-- A place in a document. -/
inductive Place where
  | instruction (index : Nat)
  | element (index : Nat)
  | connection (index : Nat)
  deriving DecidableEq, Repr

def Place.shown : Place → String
  | .instruction index => "instructions[" ++ toString index ++ "]"
  | .element index => "elements[" ++ toString index ++ "]"
  | .connection index => "connections[" ++ toString index ++ "]"

/-- Why a document is refused. -/
inductive DocumentFault where
  | notAProgram
  | notARecord (given : Value)
  | idMissing
  | notAList (key : String)
  | entry (place : Place) (fault : EntryFault)

def DocumentFault.message : DocumentFault → String
  | .notAProgram => "expected an object with program.instructions as a list"
  | .notARecord given => "expected an object, got " ++ given.kindName
  | .idMissing => "missing 'id'"
  | .notAList key => "'" ++ key ++ "' must be a list"
  | .entry place fault => place.shown ++ fault.message

end RungLogic
