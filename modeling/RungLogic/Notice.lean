import RungLogic.Operator
import RungLogic.Value

/-!
Notices: what an operation reports beside its result. Each has a level, a source and a wording.
-/

set_option autoImplicit false
set_option relaxedAutoImplicit false

namespace RungLogic

/-- Something worth telling, though the operation goes on. -/
inductive Notice where
  /-- The operator has no counterpart in a ladder. -/
  | unsupported (operator : Operator)
  /-- The element has no counterpart in an instruction list. -/
  | untraceable (element : String)
  /-- An edit names an element that is not there. -/
  | notFound (id network : String)
  /-- An update names an element that is not there. -/
  | notUpdated (id network : String)
  /-- The preset of a counter is no integer. -/
  | badCount (preset : Value)
  /-- A quotient by zero is asked for. -/
  | divisionByZero (dividend divisor : String)
  /-- The element has no simulation. -/
  | unsimulated (element : String)
  /-- A block cannot compute its result. -/
  | failed (element reason : String)
  /-- A block has one operand only. -/
  | operandMissing (element : String)
  /-- An operand names a variable that is not there. -/
  | variableMissing (name element : String)
  /-- A coil may not write its variable. -/
  | writeRefused (element target reason : String)
  /-- Settings cannot be read and the defaults are taken. -/
  | settingsUnread
  /-- The runner stops because a scan failed. -/
  | runnerStopped (reason : String)
  /-- A command fails while details are asked for. -/
  | commandFailed

namespace Notice

def origin : Notice → String
  | unsupported _ | untraceable _ => "WARNING converter"
  | notFound .. | notUpdated .. => "WARNING network_ops"
  | badCount _ | divisionByZero .. | unsimulated _ => "WARNING simulator"
  | operandMissing _ | variableMissing .. => "WARNING simulator"
  | failed .. | writeRefused .. => "ERROR simulator"
  | settingsUnread => "WARNING config"
  | runnerStopped _ => "ERROR session"
  | commandFailed => "ERROR cli"

def message : Notice → String
  | unsupported operator => "Unsupported IL operator " ++ operator.name ++ ", instruction skipped"
  | untraceable element => "Cannot convert " ++ element ++ " to IL, element skipped"
  | notFound id network => "Element " ++ id ++ " not found in network " ++ network
  | notUpdated id network =>
    "Element " ++ id ++ " not found in network " ++ network ++ ", nothing updated"
  | badCount preset => "Invalid counter preset " ++ preset.shown ++ ", using 0"
  | divisionByZero dividend divisor =>
    "Division by zero (" ++ dividend ++ " / " ++ divisor ++ "), result set to 0"
  | unsimulated element => "Unknown element type for evaluation: " ++ element
  | failed element reason => "Error evaluating " ++ element ++ ": " ++ reason
  | operandMissing element => element ++ " has no second operand, using 0"
  | variableMissing name element =>
    "Variable " ++ name ++ " not found for " ++ element ++ ", using 0"
  | writeRefused element target reason =>
    element ++ " cannot write " ++ target ++ ": " ++ reason
  | settingsUnread => "Could not load config"
  | runnerStopped reason => "Continuous simulation stopped: " ++ reason
  | commandFailed => "Command failed"

def line (n : Notice) : String := n.origin ++ ": " ++ n.message

end Notice

end RungLogic
