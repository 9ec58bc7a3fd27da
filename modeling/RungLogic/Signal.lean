import RungLogic.Value

/-!
Signals: what runs along the wires of a ladder, truth values and numbers.
-/

set_option autoImplicit false
set_option relaxedAutoImplicit false

namespace RungLogic

/-- What a port carries. -/
inductive Signal where
  | truth (b : Bool)
  | num (n : Number)

namespace Signal

/-- A signal is on when it is true or a number other than zero. -/
def isOn : Signal → Bool
  | truth b => b
  | num n => !n.isZero

/-- The signal as a number; a truth value counts as zero or one. -/
def number : Signal → Number
  | truth b => .int (if b then 1 else 0)
  | num n => n

def value : Signal → Value
  | truth b => .bool b
  | num n => .num n

def text (s : Signal) : String := s.value.plain

end Signal

end RungLogic
