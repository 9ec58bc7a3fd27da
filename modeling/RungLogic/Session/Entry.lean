import RungLogic.Error
import RungLogic.Number.Reader
import RungLogic.Preset
import RungLogic.Text.Uppercase

/-!
Values typed at a prompt. A text has to fit the type that is asked for; without one its own form
decides: a truth word, an integer, a real, or a duration. No numeral is read that has too many digits.
-/

set_option autoImplicit false
set_option relaxedAutoImplicit false

namespace RungLogic.Session

def truthWord? (word : String) : Option Bool :=
  if ["true", "1", "on", "yes"].contains word then some true
  else if ["false", "0", "off", "no"].contains word then some false
  else none

def readTruth (text : String) : Except ValueFault Value :=
  match truthWord? (Text.lowerASCII (Text.trim text)) with
  | some b => .ok (.bool b)
  | none => .error (.notATruthValue text)

def readInteger (text : String) : Except ValueFault Value :=
  match Number.excess? text, Number.readInteger? text with
  | some digits, _ => .error (.unreadable digits)
  | none, some i => .ok (.int i)
  | none, none => .error (.notAnInteger text)

def readReal (text : String) : Except ValueFault Value :=
  match Number.readReal? text with
  | some x => .ok (.num (.real x))
  | none => .error (.notAReal text)

/-- Whether a text begins as a duration, in either case. -/
def looksLikeDuration (text : String) : Bool :=
  match (Text.trim text).toList with
  | 't' :: '#' :: _ => true
  | 'T' :: '#' :: _ => true
  | _ => false

def duration (text : String) : Value := .int (Preset.textDuration text)

def readDuration (text : String) : Except ValueFault Value :=
  match Preset.excess? text with
  | some digits => .error (.unreadable digits)
  | none => .ok (duration text)

/-- The text as a value of any type. An integer of too many digits is a real. -/
def readAny (text : String) : Except ValueFault Value :=
  if ["true", "false"].contains (Text.lowerASCII (Text.trim text)) then readTruth text
  else match readInteger text with
    | .ok v => .ok v
    | .error _ => match Number.readReal? text with
      | some x => .ok (.num (.real x))
      | none => if looksLikeDuration text then readDuration text else .error (.noType text)

def readValue (type : Option VarType) (text : String) : Except ValueFault Value :=
  match type with
  | some .bool => readTruth text
  | some .int => readInteger text
  | some .real => readReal text
  | some .time => if looksLikeDuration text then readDuration text else readInteger text
  | none => readAny text

end RungLogic.Session
