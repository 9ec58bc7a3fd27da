import RungLogic.Instruction
import RungLogic.Text.Lines
import RungLogic.Text.Word

/-!
Instructions read from text, one to a line. Blank lines and lines that begin with a semicolon are
passed over; the first line that fails decides the error, which carries the number of the line.
-/

set_option autoImplicit false
set_option relaxedAutoImplicit false

namespace RungLogic.Instruction

/-- The two words of an operator with a modifier between parentheses; the modifier may be empty. -/
def parenthesized? (token : List Char) : Option (List Char × List Char) :=
  let word := token.takeWhile (· ≠ '(')
  match (token.dropWhile (· ≠ '(')).reverse with
  | ')' :: inside =>
    let modifier := inside.reverse.drop 1
    if !word.isEmpty && Text.allWord word && Text.allWord modifier then some (word, modifier)
    else none
  | _ => none

/-- The operator word and the modifier of the first word of a line. -/
def splitToken (token : String) : Except LineFault (String × Option String) :=
  let cs := token.toList
  if cs.contains '(' || cs.contains ')' then
    match parenthesized? cs with
    | some (word, []) => .ok (String.ofList word, none)
    | some (word, modifier) => .ok (String.ofList word, some (String.ofList modifier))
    | none => .error (.malformed token)
  else .ok (token, none)

/-- Several words make one text, with single blanks between them; no words make none. -/
def joined? : List String → Option String
  | [] => none
  | ws => some (" ".intercalate ws)

def parse (line : String) : Except Error Instruction :=
  match Text.words line with
  | [] => .error (.line .empty none)
  | token :: rest =>
    match splitToken token with
    | .error fault => .error (.line fault none)
    | .ok (word, modifier) => make (.text word) (.ofText? (joined? rest)) (.ofText? modifier)

/-- Whether a line holds an instruction: it is neither blank nor a comment. -/
def isActive (line : String) : Bool :=
  match Text.trimBy Text.isBlank line.toList with
  | [] => false
  | c :: _ => c ≠ ';'

end RungLogic.Instruction

namespace RungLogic

def Error.atLine (number : Nat) : Error → Error
  | .line fault none => .line fault (some number)
  | e => e

namespace Program

def parseFrom : Nat → List String → Except Error Program
  | _, [] => .ok []
  | number, line :: rest =>
    if Instruction.isActive line then
      match Instruction.parse (Text.trim line) with
      | .error e => .error (e.atLine number)
      | .ok i => (parseFrom (number + 1) rest).map (i :: ·)
    else parseFrom (number + 1) rest

def parse (text : String) : Except Error Program := parseFrom 1 (Text.lines text)

end Program

end RungLogic
