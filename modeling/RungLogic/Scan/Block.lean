import RungLogic.Number.Reader
import RungLogic.Scan.Memory

/-!
Blocks: what each kind of element computes from the signals on its inputs. An input that is not
wired is off, or zero where a number is wanted. A block whose numbers do not go together reports it
and is off.
-/

set_option autoImplicit false
set_option relaxedAutoImplicit false

namespace RungLogic.Scan

/-- The input ports that an element of a kind reads, in order. -/
def readPorts : Kind → List String
  | .coil | .coilNegated | .not | .timerOn | .timerOff => ["in"]
  | .counterUp => ["cu", "r"]
  | .counterDown => ["cd", "ld"]
  | .contact | .contactNegated | .timerPulse | .counterUpDown => []
  | .and | .or | .add | .subtract | .multiply | .divide => ["in1", "in2"]
  | .greaterThan | .greaterEqual | .equal | .notEqual | .lessEqual | .lessThan => ["in1", "in2"]

theorem length_readPorts_le (k : Kind) : (readPorts k).length ≤ 2 := by
  cases k <;> decide

/-- What comes of a block: its result, the state it has then, and what it reports. -/
structure Computed where
  result : Except Error Signal
  state : Option ElementState := none
  notices : List Notice := []

def Computed.truth (b : Bool) : Computed := { result := .ok (.truth b) }

def isOn (inputs : Table Signal) (port : String) : Bool := (inputs.value? port).any Signal.isOn

def firstSide (inputs : Table Signal) : Signal := (inputs.value? "in1").getD (.num (.int 0))

/-- The second operand that a text names: a number, a duration, or a variable. -/
def namedOperand (store : Store) (e : Element) (s : String) : Signal × List Notice :=
  let name := Text.trim s
  match Number.readInteger? name with
  | some i => (.num (.int i), [])
  | none => match Number.readReal? name with
    | some x => (.num (.real x), [])
    | none =>
      if "T#".toList.isPrefixOf name.toList then (.num (.int (Preset.textDuration name)), [])
      else match store.value? name with
        | some content => (content.signal, [])
        | none => (.num (.int 0), [.variableMissing name e.title])

/-- The signal on the second side of a block: its wire, or else its operand. -/
def secondSide (store : Store) (e : Element) (inputs : Table Signal) : Signal × List Notice :=
  match inputs.value? "in2" with
  | some s => (s, [])
  | none => match e.operand with
    | .num n => (.num n, [])
    | .text s => namedOperand store e s
    | _ => (.num (.int 0), [.operandMissing e.title])

/-- A number as a result; none when a side is too large. -/
def ofNumber? : Option Number → Except Error Signal
  | some n => .ok (.num n)
  | none => .error .tooLarge

/-- The quotient of two signals; by zero it is zero, which is reported. -/
def quotient (a b : Signal) : Except Error Signal × List Notice :=
  if b.number.isZero then (.ok (.num (.int 0)), [.divisionByZero a.text b.text])
  else (ofNumber? (a.number.div? b.number), [])

/-- Whether two numbers stand in the relation that a kind of block tests. -/
def holds (kind : Kind) (a b : Number) : Bool :=
  match kind, a.compare? b with
  | .greaterThan, some .gt => true
  | .greaterEqual, some .gt => true
  | .greaterEqual, some .eq => true
  | .equal, some .eq => true
  | .lessEqual, some .lt => true
  | .lessEqual, some .eq => true
  | .lessThan, some .lt => true
  | .notEqual, o => o != some .eq
  | _, _ => false

def twoSided (store : Store) (e : Element) (inputs : Table Signal)
    (f : Signal → Signal → Except Error Signal × List Notice) : Computed :=
  let (b, said) := secondSide store e inputs
  let (result, more) := f (firstSide inputs) b
  { result := result, notices := said ++ more }

def arithmetic (f : Number → Number → Option Number) (a b : Signal) :
    Except Error Signal × List Notice := (ofNumber? (f a.number b.number), [])

def comparison (kind : Kind) (a b : Signal) : Except Error Signal × List Notice :=
  (.ok (.truth (holds kind a.number b.number)), [])

def ofTimer : Option (Timer × Bool) → Computed
  | some (t, on) => { result := .ok (.truth on), state := some (.timer t) }
  | none => { result := .error .tooLarge }

/-- Evaluates an on-delay timer; while its input is off, it asks nothing of the state. -/
def timerOn (now : Number) (e : Element) (inputs : Table Signal) (state : Option ElementState) :
    Computed :=
  let step (t : Timer) := ofTimer (t.onDelay (isOn inputs "in") (Preset.duration e.preset) now)
  match state with
  | none => step {}
  | some (.timer t) => step t
  | some (.counter _) => if isOn inputs "in" then { result := .error .part } else step {}

def timerOff (now : Number) (e : Element) (inputs : Table Signal) (state : Option ElementState) :
    Computed :=
  let step (t : Timer) := ofTimer (t.offDelay (isOn inputs "in") (Preset.duration e.preset) now)
  match state with
  | none => step {}
  | some (.timer t) => step t
  | some (.counter _) => { result := .error .part }

def countNotices (e : Element) : List Notice :=
  match Preset.count? e.preset with
  | some _ => []
  | none => [.badCount e.preset]

/-- Evaluates a counter; while it is set, it asks nothing of the state. -/
def counter (e : Element) (set : Bool) (fresh : Counter) (step : Counter → Counter × Bool)
    (state : Option ElementState) : Computed :=
  let run (c : Counter) : Computed :=
    let (c, on) := step c
    { result := .ok (.truth on), state := some (.counter c), notices := countNotices e }
  match state with
  | none => run fresh
  | some (.counter c) => run c
  | some (.timer _) =>
    if set then run fresh else { result := .error .part, notices := countNotices e }

def counterUp (e : Element) (inputs : Table Signal) (state : Option ElementState) : Computed :=
  counter e (isOn inputs "r") {}
    (fun c => c.up (isOn inputs "cu") (isOn inputs "r") (Preset.count e.preset)) state

/-- Evaluates a counter that counts down; it begins at its preset. -/
def counterDown (e : Element) (inputs : Table Signal) (state : Option ElementState) : Computed :=
  counter e (isOn inputs "ld") ⟨Preset.count e.preset, false⟩
    (fun c => c.down (isOn inputs "cd") (isOn inputs "ld") (Preset.count e.preset)) state

def contactOn (store : Store) (e : Element) : Bool :=
  match e.reference? with
  | some name => (store.value? name).any fun c => c.value.truthy
  | none => false

def compute (w : Surroundings) (e : Element) (inputs : Table Signal) (state : Option ElementState) :
    Computed :=
  match e.kind with
  | .contact => .truth (contactOn w.store e)
  | .contactNegated => .truth (!contactOn w.store e)
  | .coil => .truth (isOn inputs "in")
  | .coilNegated => .truth (!isOn inputs "in")
  | .and => .truth (isOn inputs "in1" && isOn inputs "in2")
  | .or => .truth (isOn inputs "in1" || isOn inputs "in2")
  | .not => .truth (!isOn inputs "in")
  | .timerOn => timerOn w.now e inputs state
  | .timerOff => timerOff w.now e inputs state
  | .counterUp => counterUp e inputs state
  | .counterDown => counterDown e inputs state
  | .add => twoSided w.store e inputs (arithmetic Number.add?)
  | .subtract => twoSided w.store e inputs (arithmetic Number.sub?)
  | .multiply => twoSided w.store e inputs (arithmetic Number.mul?)
  | .divide => twoSided w.store e inputs quotient
  | .greaterThan | .greaterEqual | .equal | .notEqual | .lessEqual | .lessThan =>
    twoSided w.store e inputs (comparison e.kind)
  | .timerPulse | .counterUpDown =>
    { result := .ok (.truth false), notices := [.unsimulated e.title] }

/-- Numbers that do not go together are reported, and the element is off. -/
def Computed.settle (c : Computed) (e : Element) : Computed :=
  match c.result with
  | .error .tooLarge =>
    { result := .ok (.truth false)
      notices := c.notices ++ [.failed e.title Error.tooLarge.message] }
  | _ => c

/-- Applies an element to its inputs: remembers its state, keeps and records its result. -/
def apply (w : Surroundings) (e : Element) (inputs : Table Signal) (m : Memory) :
    Except Error Signal × Memory :=
  let c := (compute w e inputs (m.states.value? e.id)).settle e
  let m := (m.remember e.id c.state).say c.notices
  match c.result with
  | .ok s => (.ok s, (m.keep w e s).record e.id s)
  | .error fault => (.error fault, m)

end RungLogic.Scan
