import RungLogic.Element.Create
import RungLogic.Network
import RungLogic.Notice

/-!
Edits of networks. An edit gives a new network, which is checked as a whole, or fails and changes
nothing. An edit of an element that is not there gives the network as it is, with a notice.
-/

set_option autoImplicit false
set_option relaxedAutoImplicit false

namespace RungLogic

namespace Element

def move (e : Element) (p : Placement) : Except Error Element :=
  ({ e.draft with position := p } : Draft).check.mapError (.invalid .element)

/-- The element with a property set; the key has to be able to be one. -/
def setProperty (e : Element) (key value : Value) : Except Error Element :=
  if key.canBeKey then
    let properties := (RawProperties.ofTable e.properties).put key value
    ({ e.draft with properties := some properties } : Draft).check.mapError (.invalid .element)
  else .error .shape

end Element

namespace Network

def hasElement (n : Network) (id : Value) : Bool :=
  id.text?.any fun i => (n.element? i).isSome

def addElement (n : Network) (e : Element) : Except Error Network :=
  check { n with elements := n.elements ++ [e] }

def touches (id : String) (c : Connection) : Bool := c.source.element = id || c.target.element = id

def removeElement (n : Network) (id : String) : Except Error Network :=
  match n.element? id with
  | none => .ok n
  | some _ =>
    check { n with
      elements := n.elements.filter fun e => e.id ≠ id
      connections := n.connections.filter fun c => !touches id c }

def addConnection (n : Network) (c : Connection) : Except Error Network :=
  check { n with connections := n.connections ++ [c] }

def removeConnections (n : Network) (matching : Connection → Bool) : Except Error Network :=
  check { n with connections := n.connections.filter fun c => !matching c }

def removeConnection (n : Network) (c : Connection) : Except Error Network :=
  n.removeConnections fun d => d = c

def updateElement (n : Network) (id : String) (update : Element → Except Error Element) :
    Except Error Network :=
  match n.element? id with
  | none => .ok n
  | some _ => do
    let elements ← n.elements.mapM fun e => if e.id = id then update e else .ok e
    check { n with elements := elements }

def updatePosition (n : Network) (id : String) (p : Placement) : Except Error Network :=
  n.updateElement id fun e => e.move p

def updateProperty (n : Network) (id : String) (key value : Value) : Except Error Network :=
  n.updateElement id fun e => e.setProperty key value

end Network

/-- An edit as it is asked for, with any values for ids, ports and properties. -/
inductive Edit where
  | addElement (request : Element.Request)
  | removeElement (id : Value)
  | addConnection (source sourcePort target targetPort : Value)
  | removeConnection (source sourcePort target targetPort : Value)
  | updatePosition (id : Value) (position : Placement)
  | updateProperty (id key value : Value)

namespace Edit

def matchesParts (values : List Value) (c : Connection) : Bool :=
  values.map Value.text? = c.parts.map some

/-- Applies an edit to the element that a value names; only a text names one. -/
def onElement (n : Network) (id : Value) (edit : String → Except Error Network) :
    Except Error Network :=
  match id.text? with
  | some i => edit i
  | none => .ok n

def result (n : Network) (supply : Supply) : Edit → Except Error Network × Supply
  | addElement request =>
    let (e, supply) := Element.create request supply
    (e.bind n.addElement, supply)
  | removeElement id => (onElement n id n.removeElement, supply)
  | addConnection s sp t tp => ((Connection.make s sp t tp).bind n.addConnection, supply)
  | removeConnection s sp t tp => (n.removeConnections (matchesParts [s, sp, t, tp]), supply)
  | updatePosition id p => (onElement n id fun i => n.updatePosition i p, supply)
  | updateProperty id key value => (onElement n id fun i => n.updateProperty i key value, supply)

/-- What is said of an edit that names an element that is not there. -/
def notices (n : Network) : Edit → List Notice
  | removeElement id => if n.hasElement id then [] else [.notFound id.plain n.id]
  | updatePosition id _ => if n.hasElement id then [] else [.notUpdated id.plain n.id]
  | updateProperty id _ _ => if n.hasElement id then [] else [.notUpdated id.plain n.id]
  | _ => []

end Edit

end RungLogic
