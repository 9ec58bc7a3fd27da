import RungLogic.Document.Entries
import RungLogic.Network

/-!
Networks as documents: a record with the id, the list of elements and the list of connections.
Reading first gathers the faults of all entries, each on its own, and only then looks at the network
as a whole.
-/

set_option autoImplicit false
set_option relaxedAutoImplicit false

namespace RungLogic

namespace Element

def portEntries (ports : List String) : Value :=
  .list (ports.map fun p => .record [("id", .text p)])

def entry (e : Element) : Value :=
  .record [("type", .text e.kind.name), ("id", .text e.id),
    ("position", .record [("x", .num e.position.x), ("y", .num e.position.y)]),
    ("inputs", portEntries e.inputs), ("outputs", portEntries e.outputs),
    ("properties", .record e.properties)]

def portOf? : Value → Option Value
  | .record fields => Table.value? "id" fields
  | _ => none

/-- The faults of the ports from the one of that index on, and the ids of the others. -/
def readPortsFrom (side : Side) : Nat → List Value → List EntryFault × List Value
  | _, [] => ([], [])
  | index, v :: rest =>
    let (faults, ports) := readPortsFrom side (index + 1) rest
    match portOf? v with
    | some id => (faults, id :: ports)
    | none => (.noPort side index :: faults, ports)

def readPorts (side : Side) : Value → List EntryFault × List Value
  | .list entries => readPortsFrom side 0 entries
  | _ => ([.notAPortList side], [])

def requiredKeys : List String := ["type", "id", "position", "inputs", "outputs"]

def coordinates? : Value → Option (Value × Value)
  | .record fields => do
    let x ← Table.value? "x" fields
    let y ← Table.value? "y" fields
    return (x, y)
  | _ => none

/-- The properties of an entry; missing or null ones are empty. -/
def propertiesOf : Value → Option RawProperties
  | .null => some []
  | .record fields => some (RawProperties.ofTable fields)
  | _ => none

def ofEntry : Value → Except (List EntryFault) Element
  | .record fields =>
    match requiredKeys.filter fun key => !Table.has key fields with
    | [] =>
      match coordinates? (Value.field "position" fields) with
      | none => .error [.noPosition]
      | some (x, y) =>
        let (inputFaults, inputs) := readPorts .inputs (Value.field "inputs" fields)
        let (outputFaults, outputs) := readPorts .outputs (Value.field "outputs" fields)
        match inputFaults ++ outputFaults with
        | [] =>
          let d : Draft :=
            { id := Value.field "id" fields
              kind := Value.field "type" fields
              position := .coords x y
              inputs := inputs
              outputs := outputs
              properties := propertiesOf (Value.field "properties" fields) }
          Document.refuse d.check
        | faults => .error faults
    | keys => .error [.missing keys]
  | given => .error [.notARecord given]

end Element

namespace Connection

def endEntry (r : PortEnd) : Value := .record [("element", .text r.element), ("port", .text r.port)]

def entry (c : Connection) : Value :=
  .record [("source", endEntry c.source), ("target", endEntry c.target)]

def endOf? (side : End) : Value → Option (Value × Value)
  | .record fields => match Value.field side.name fields with
    | .record inner => do
      let element ← Table.value? "element" inner
      let port ← Table.value? "port" inner
      return (element, port)
    | _ => none
  | _ => none

def ofEntry (v : Value) : Except (List EntryFault) Connection :=
  match endOf? .source v with
  | none => .error [.noEnd .source]
  | some (source, sourcePort) => match endOf? .target v with
    | none => .error [.noEnd .target]
    | some (target, targetPort) => Document.refuse (ofValues source sourcePort target targetPort)

end Connection

namespace Network

def document (n : Network) : Value :=
  .record [("id", .text n.id), ("elements", .list (n.elements.map Element.entry)),
    ("connections", .list (n.connections.map Connection.entry))]

/-- The entries of a list in a document; a list that is missing is empty. -/
def entriesOf (key : String) (fields : Table Value) : List DocumentFault × List Value :=
  match Table.value? key fields with
  | none => ([], [])
  | some (.list entries) => ([], entries)
  | some _ => ([.notAList key], [])

def ofDocument : Value → Except Error Network
  | .record fields =>
    let idFaults : List DocumentFault := if Table.has "id" fields then [] else [.idMissing]
    let (elementsFaults, elementEntries) := entriesOf "elements" fields
    let (connectionsFaults, connectionEntries) := entriesOf "connections" fields
    let (elementFaults, elements) :=
      Document.readEntries Place.element Element.ofEntry elementEntries
    let (connectionFaults, connections) :=
      Document.readEntries Place.connection Connection.ofEntry connectionEntries
    match idFaults ++ elementsFaults ++ connectionsFaults ++ elementFaults ++ connectionFaults with
    | [] => make (Value.field "id" fields) elements connections
    | faults => .error (.document .network faults)
  | given => .error (.document .network [.notARecord given])

end Network

end RungLogic
