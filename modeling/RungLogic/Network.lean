import RungLogic.Connection
import RungLogic.Element.Draft

/-!
Networks: elements in order and the wires between their ports. A network is valid when its id is a
name, its elements have distinct ids, and every wire runs from an output to an input of its
elements.
-/

set_option autoImplicit false
set_option relaxedAutoImplicit false

namespace RungLogic

/-- A ladder network. -/
structure Network where
  id : String
  elements : List Element
  connections : List Connection

namespace Network

def element? (n : Network) (id : String) : Option Element := n.elements.find? fun e => e.id = id

def incoming (n : Network) (id : String) (port : Option String) : List Connection :=
  n.connections.filter fun c => c.target.element = id && port.all (c.target.port = ·)

def outgoing (n : Network) (id : String) (port : Option String) : List Connection :=
  n.connections.filter fun c => c.source.element = id && port.all (c.source.port = ·)

def title (n : Network) : String :=
  "Network(" ++ n.id ++ ", elements=" ++ toString n.elements.length ++ ", connections=" ++
    toString n.connections.length ++ ")"

def repeatedIds (seen : List String) : List Element → List String
  | [] => []
  | e :: rest => if seen.contains e.id then e.id :: repeatedIds seen rest
    else repeatedIds (e.id :: seen) rest

/-- What is wrong with one end of the wire of that index; of several elements of one id the last
counts. -/
def endFaults (elements : List Element) (index : Nat) (side : End) (r : PortEnd) : List Fault :=
  match elements.reverse.find? fun e => e.id = r.element with
  | none => [.unknownEnd index side r.element]
  | some e =>
    let ports := match side with
      | .source => e.outputs
      | .target => e.inputs
    if ports.contains r.port then [] else [.notAPort index side r.port e.kind e.id]

def wireFaults (elements : List Element) : Nat → List Connection → List Fault
  | _, [] => []
  | index, c :: rest =>
    endFaults elements index .source c.source ++ endFaults elements index .target c.target ++
      wireFaults elements (index + 1) rest

def bodyFaults (elements : List Element) (connections : List Connection) : List Fault :=
  (repeatedIds [] elements).map .repeatedElement ++ wireFaults elements 0 connections

def make (id : Value) (elements : List Element) (connections : List Connection) :
    Except Error Network :=
  match id.name?, bodyFaults elements connections with
  | some id, [] => .ok ⟨id, elements, connections⟩
  | some _, faults => .error (.invalid .network faults)
  | none, faults => .error (.invalid .network (.networkUnnamed :: faults))

def check (n : Network) : Except Error Network := make (.text n.id) n.elements n.connections

/-- A network is valid when its parts are and fit together. -/
structure Valid (n : Network) : Prop where
  named : Text.isName n.id = true
  elements : ∀ e ∈ n.elements, e.Valid
  connections : ∀ c ∈ n.connections, c.Valid
  body : bodyFaults n.elements n.connections = []

instance (n : Network) : Decidable n.Valid :=
  decidable_of_iff
    (Text.isName n.id = true ∧ (∀ e ∈ n.elements, e.Valid) ∧ (∀ c ∈ n.connections, c.Valid) ∧
      bodyFaults n.elements n.connections = [])
    ⟨fun ⟨named, elements, connections, body⟩ => ⟨named, elements, connections, body⟩,
      fun ⟨named, elements, connections, body⟩ => ⟨named, elements, connections, body⟩⟩

theorem make_eq_ok {id : Value} {es : List Element} {cs : List Connection} {n : Network}
    (h : make id es cs = .ok n) :
    id.name? = some n.id ∧ n.elements = es ∧ n.connections = cs ∧ bodyFaults es cs = [] := by
  unfold make at h
  split at h <;> simp_all
  subst h
  simp

end Network

end RungLogic
