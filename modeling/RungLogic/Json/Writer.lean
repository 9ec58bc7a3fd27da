import RungLogic.Value

/-!
Values written as JSON texts: two blanks of indentation for each level, one line for each item or
entry, and only printable ASCII in strings.
-/

set_option autoImplicit false
set_option relaxedAutoImplicit false

namespace RungLogic.Json

def unitEscape (n : Nat) : List Char := '\\' :: 'u' :: Text.hexDigits 4 n

def escapeChar (c : Char) : List Char :=
  let n := c.toNat
  if c = '"' || c = '\\' then ['\\', c]
  else if 32 ≤ n && n ≤ 126 then [c]
  else if c = '\n' then ['\\', 'n']
  else if c = '\r' then ['\\', 'r']
  else if c = '\t' then ['\\', 't']
  else if n = 8 then ['\\', 'b']
  else if n = 12 then ['\\', 'f']
  else if n < 65536 then unitEscape n
  else unitEscape (0xD800 + (n - 65536) / 1024) ++ unitEscape (0xDC00 + (n - 65536) % 1024)

def writeString (s : String) : String :=
  String.ofList ('"' :: s.toList.flatMap escapeChar ++ ['"'])

/-- A number: the words for those without digits, and the text of the number otherwise. -/
def writeNumber : Number → String
  | .int i => toString i
  | .real x => match Number.Form.ofReal x with
    | .undefined => "NaN"
    | .infinite negative => if negative then "-Infinity" else "Infinity"
    | form => form.text

def newLine (level : Nat) : String := "\n" ++ String.ofList (List.replicate (2 * level) ' ')

/-- Parts between brackets, each on a line of its own one level deeper. -/
def block (level : Nat) (opening closing : String) (parts : List String) : String :=
  if parts.isEmpty then opening ++ closing
  else opening ++ newLine (level + 1) ++ ("," ++ newLine (level + 1)).intercalate parts ++
    newLine level ++ closing

mutual

def writeAt (level : Nat) : Value → String
  | .null => "null"
  | .bool b => if b then "true" else "false"
  | .num n => writeNumber n
  | .text s => writeString s
  | .list items => block level "[" "]" (writeItems (level + 1) items)
  | .record entries => block level "\x7b" "\x7d" (writeEntries (level + 1) entries)

def writeItems (level : Nat) : List Value → List String
  | [] => []
  | v :: rest => writeAt level v :: writeItems level rest

def writeEntries (level : Nat) : List (String × Value) → List String
  | [] => []
  | (k, v) :: rest => (writeString k ++ ": " ++ writeAt level v) :: writeEntries level rest

end

def write (v : Value) : String := writeAt 0 v

end RungLogic.Json
