import RungLogic.Error
import RungLogic.Number

/-!
The clock of a simulation: each reading moves it on by a fixed step.
-/

set_option autoImplicit false
set_option relaxedAutoImplicit false

namespace RungLogic

/-- The next reading, and how far the clock moves with each. -/
structure Clock where
  now : Number := .int 0
  step : Number := .int 0

namespace Clock

def advance (c : Clock) (span : Number) : Except Error Clock :=
  match c.now.add? span with
  | some now => .ok { c with now := now }
  | none => .error .tooLarge

def read (c : Clock) : Except Error (Number × Clock) :=
  (c.advance c.step).map fun next => (c.now, next)

end Clock

end RungLogic
