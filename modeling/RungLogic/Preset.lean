import RungLogic.Value

/-!
Presets: durations for timers and counts for counters. A duration is written as a literal of digits
and a unit; what is no literal stands for a second. What is no count stands for zero.
-/

set_option autoImplicit false
set_option relaxedAutoImplicit false

namespace RungLogic.Preset

def unitFactor? : List Char → Option Nat
  | ['m', 's'] => some 1
  | ['s'] => some 1000
  | ['m'] => some 60000
  | ['h'] => some 3600000
  | _ => none

/-- The milliseconds that a literal of digits and a unit denotes. -/
def literal? (cs : List Char) : Option Nat :=
  match cs with
  | 'T' :: '#' :: rest =>
    let digits := rest.takeWhile fun c => (Text.digitValue? c).isSome
    if digits.isEmpty then none
    else (unitFactor? (rest.drop digits.length)).map fun factor =>
      Number.ofDigits (digits.filterMap Text.digitValue?) * factor
  | _ => none

def standardDuration : Nat := 1000

/-- The milliseconds of a text, with blanks around it allowed. -/
def textDuration (s : String) : Nat :=
  (literal? (Text.trimBy Text.isBlank s.toList)).getD standardDuration

/-- The number of digits behind the two letters that open a literal. -/
def literalLength (cs : List Char) : Nat :=
  ((cs.drop 2).takeWhile fun c => (Text.digitValue? c).isSome).length

/-- The number of digits of a text that is a literal, if there are more of them than the limit. -/
def excess? (s : String) : Option Nat :=
  let cs := Text.trimBy Text.isBlank s.toList
  if (literal? cs).isSome && Number.digitLimit < literalLength cs then some (literalLength cs)
  else none

/-- The milliseconds of any value; only a text can hold a literal. -/
def duration : Value → Nat
  | .text s => textDuration s
  | _ => standardDuration

/-- The count of a value: an integer, or a text that reads as one. -/
def count? : Value → Option Int
  | .num (.int i) => some i
  | .text s => Number.readInteger? (Text.trim s)
  | _ => none

/-- The count of a value, zero when it has none. -/
def count (v : Value) : Int := (count? v).getD 0

end RungLogic.Preset
