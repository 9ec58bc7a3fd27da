/-!
Line breaks. A text is cut into lines at every break, a carriage return with the line feed after it
counting as one break; a break at the end opens no further line.
-/

set_option autoImplicit false
set_option relaxedAutoImplicit false

namespace RungLogic.Text

/-- The characters that end a line. -/
def isBreak (c : Char) : Bool :=
  let n := c.toNat
  (10 ≤ n && n ≤ 13) || (28 ≤ n && n ≤ 30) || n = 0x85 || n = 0x2028 || n = 0x2029

def splitLines : List Char → List (List Char)
  | [] => []
  | '\r' :: '\n' :: rest => [] :: splitLines rest
  | c :: rest =>
    if isBreak c then [] :: splitLines rest
    else match splitLines rest with
      | [] => [[c]]
      | l :: ls => (c :: l) :: ls

def lines (s : String) : List String := (splitLines s.toList).map String.ofList

/-- Every carriage return, alone or before a line feed, becomes a line feed. -/
def feedLines : List Char → List Char
  | [] => []
  | '\r' :: '\n' :: rest => '\n' :: feedLines rest
  | c :: rest => (if c = '\r' then '\n' else c) :: feedLines rest

/-- The text of a file as it is read: all its lines end in a line feed. -/
def readText (s : String) : String := String.ofList (feedLines s.toList)

/-- The pieces between line feeds; a line feed at the end opens no further piece. -/
def splitFeeds : List Char → List (List Char)
  | [] => []
  | c :: rest =>
    if c = '\n' then [] :: splitFeeds rest
    else match splitFeeds rest with
      | [] => [[c]]
      | l :: ls => (c :: l) :: ls

end RungLogic.Text
