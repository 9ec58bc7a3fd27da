import RungLogic.Json.Reader
import RungLogic.Network.Trace
import RungLogic.Notice
import RungLogic.Text.Uppercase
import RungLogic.Variable

/-!
Settings of simulations and traces, with defaults for all that is left out. Settings that cannot be
read give way to the defaults as a whole, which is reported. What makes values of texts is a library
outside; what may come of it is a parameter.
-/

set_option autoImplicit false
set_option relaxedAutoImplicit false

namespace RungLogic

/-- The settings of a simulation: intervals in milliseconds, and the variables it begins with. -/
structure SimulationSettings where
  scanInterval : Number := .int 200
  pollInterval : Number := .int 50
  memoize : Bool := false
  definitions : List Value := Store.standardDefinitions

/-- All settings. -/
structure Settings where
  simulation : SimulationSettings := {}
  trace : TraceOptions := {}
  logLevel : String := "WARNING"

namespace Settings

def fileName : String := "ladderplc.yaml"

/-- A value as an integer: a real is cut off, a text is read. -/
def integer : Value → Except Error Int
  | .bool b => .ok (if b then 1 else 0)
  | .num (.int i) => .ok i
  | .num (.real x) => match Number.Form.ofReal x with
    | .undefined => .error (.value .undefinedInteger)
    | .infinite _ => .error .tooLarge
    | form => .ok (form.truncate?.getD 0)
  | .text s => match Number.readInteger? s with
    | some i => .ok i
    | none => .error (.value (.notAnInteger s))
  | _ => .error .shape

/-- The entries of a section; a section that is empty or missing has none. -/
def section? (v : Value) : Except Error (Table Value) :=
  if !v.truthy then .ok []
  else match v with
    | .record fields => .ok fields
    | _ => .error .part

/-- An entry, or its default when it is missing. -/
def entryOr (name : String) (default : Value) (fields : Table Value) : Value :=
  (fields.value? name).getD default

def definitionsOf (v : Value) : Except Error (List Value) :=
  match v.parts? with
  | some items => .ok items
  | none => .error .shape

def ofValue (v : Value) : Except Error Settings := do
  let fields ← section? v
  let simulation ← section? (Value.field "simulation" fields)
  let scan ← integer (entryOr "scan_interval_ms" (.int 200) simulation)
  let poll ← integer (entryOr "poll_interval_ms" (.int 50) simulation)
  let definitions ← definitionsOf (entryOr "variables" (.list Store.standardDefinitions) simulation)
  let trace ← section? (Value.field "trace" fields)
  return {
    simulation :=
      { scanInterval := .int scan
        pollInterval := .int poll
        memoize := (Value.field "memoize_stateful" simulation).truthy
        definitions := definitions }
    trace := ⟨(Value.field "continue_past_unknown" trace).truthy⟩
    logLevel := Text.upper (entryOr "log_level" (.text "WARNING") fields).plain }

/-- The defaults in place of settings that cannot be read; an interval without end is no such case.
-/
def orDefault : Except Error Settings → Except Error (Settings × List Notice)
  | .ok s => .ok (s, [])
  | .error .tooLarge => .error .tooLarge
  | .error _ => .ok ({}, [.settingsUnread])

/-- Settings from the value that a file holds, or from what kept it from being read. -/
def load (outcome : Except Error Value) : Except Error (Settings × List Notice) :=
  orDefault (outcome.bind ofValue)

/-- What comes of a text in the library that reads settings: a value, an error of the library, or an
end of the search for either, since the text nests too deep. -/
inductive Reading where
  | value (v : Value)
  | malformed
  | tooDeep

/-- Settings from what comes of the text of a file; `none` stands for a file that cannot be read. -/
def read : Option Reading → Except Error (Settings × List Notice)
  | some (.value v) => load (.ok v)
  | some .malformed | none => load (.error (.file .missing fileName))
  | some .tooDeep => .error (.value .tooDeep)

/-- A library that knows the plainest form of settings only, which is JSON; a blank text is null. -/
def Reading.ofText (text : String) : Reading :=
  if (Text.trim text).isEmpty then .value .null
  else match Json.read text with
    | .ok v => .value v
    | .error _ => .malformed

def isDefault (s : Settings) : Bool :=
  s.simulation.scanInterval.same (.int 200) && s.simulation.pollInterval.same (.int 50) &&
    !s.simulation.memoize &&
    (Value.list s.simulation.definitions).same (.list Store.standardDefinitions) &&
    !s.trace.pastUnknown && s.logLevel = "WARNING"

def store (s : SimulationSettings) : Except Error Store := Store.ofDefinitions s.definitions

end Settings

end RungLogic
