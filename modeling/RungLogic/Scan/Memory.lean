import RungLogic.Counter
import RungLogic.Notice
import RungLogic.Timer
import RungLogic.Variable
import RungLogic.Network

/-!
What evaluations read and what they leave. They read the network, the variables, one clock reading
and whether results are kept; they leave the states of timers and counters, the results kept for the
rest of the scan, the recorded outputs and the notices.
-/

set_option autoImplicit false
set_option relaxedAutoImplicit false

namespace RungLogic

/-- What an element remembers from one scan to the next. -/
inductive ElementState where
  | timer (t : Timer)
  | counter (c : Counter)

namespace Scan

/-- What evaluations read. -/
structure Surroundings where
  network : Network
  store : Store
  now : Number
  /-- Whether a timer or counter is evaluated once in a scan, its result serving all further
  readers. -/
  memoize : Bool

/-- What evaluations leave. -/
structure Memory where
  states : Table ElementState := []
  kept : Table Signal := []
  outputs : Table Signal := []
  notices : List Notice := []

namespace Memory

def say (m : Memory) (notices : List Notice) : Memory := { m with notices := m.notices ++ notices }

def record (m : Memory) (id : String) (s : Signal) : Memory :=
  { m with outputs := m.outputs.put id s }

def remember (m : Memory) (id : String) : Option ElementState → Memory
  | some state => { m with states := m.states.put id state }
  | none => m

/-- Keeps the result of a timer or counter, where results are kept. -/
def keep (m : Memory) (w : Surroundings) (e : Element) (s : Signal) : Memory :=
  if w.memoize && e.kind.isStateful then { m with kept := m.kept.put e.id s } else m

/-- The result that is kept of a timer or counter. -/
def keptSignal? (m : Memory) (w : Surroundings) (e : Element) : Option Signal :=
  if w.memoize && e.kind.isStateful then m.kept.value? e.id else none

end Memory

/-- What a wire carries from an output port: the elapsed time of a timer, the count of a counter, or
else the result of the element. A state of the other sort has no such part. -/
def portSignal (states : Table ElementState) (e : Element) (port : String) (result : Signal) :
    Except Error Signal :=
  if port = "et" && e.kind.isTimer then
    match states.value? e.id with
    | some (.timer t) => .ok (.num t.elapsed)
    | some (.counter _) => .error .part
    | none => .ok (.num (.int 0))
  else if port = "cv" && e.kind.isCounter then
    match states.value? e.id with
    | some (.counter c) => .ok (.num (.int c.count))
    | some (.timer _) => .error .part
    | none => .ok (.num (.int 0))
  else .ok result

end Scan

end RungLogic
