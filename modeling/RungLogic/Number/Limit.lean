import RungLogic.Number
import RungLogic.Number.Reader

/-!
The limit on digits. Arithmetic knows no bound, but an integer of more digits than the limit is not
written out, and a numeral of more digits is not read.
-/

set_option autoImplicit false
set_option relaxedAutoImplicit false

namespace RungLogic.Number

/-- The most digits with which an integer is written or read. -/
def digitLimit : Nat := 4300

/-- Whether the number is an integer of more digits than the limit. -/
def isLong : Number → Bool
  | .int i => Nat.pow 10 digitLimit ≤ i.natAbs
  | .real _ => false

/-- The number of digits at the front of a text, if there are more of them than the limit. What
follows them is not looked at. -/
def excess? (s : String) : Option Nat :=
  let (_, unsigned) := takeSign (Text.trimBy isNumberBlank s.toList)
  let numeral := unsigned.takeWhile fun c => c = '_' || (Text.digitValue? c).isSome
  (digitGroup? numeral).bind fun ds => if digitLimit < ds.length then some ds.length else none

end RungLogic.Number
