/-!
Blanks: the characters that separate words. A text is trimmed by dropping the blanks at its two
ends, and its words are the longest runs of characters that are not blank.
-/

set_option autoImplicit false
set_option relaxedAutoImplicit false

namespace RungLogic.Text

/-- The blanks of Unicode, the four information separators among them. -/
def isBlank (c : Char) : Bool :=
  let n := c.toNat
  (9 ≤ n && n ≤ 13) || (28 ≤ n && n ≤ 32) || n = 0x85 || n = 0xA0 || n = 0x1680 ||
    (0x2000 ≤ n && n ≤ 0x200A) || n = 0x2028 || n = 0x2029 || n = 0x202F || n = 0x205F || n = 0x3000

/-- Drops the characters that satisfy the test at both ends. -/
def trimBy (p : Char → Bool) (cs : List Char) : List Char :=
  ((cs.dropWhile p).reverse.dropWhile p).reverse

def trim (s : String) : String := String.ofList (trimBy isBlank s.toList)

/-- A name is a text that holds more than blanks. -/
def isName (s : String) : Bool := s.toList.any fun c => !isBlank c

/-- The longest runs of characters that are not blank, in order. -/
def runs : List Char → List (List Char)
  | [] => []
  | c :: rest =>
    if isBlank c then runs rest
    else match rest with
      | [] => [[c]]
      | d :: _ =>
        if isBlank d then [c] :: runs rest
        else match runs rest with
          | [] => [[c]]
          | w :: ws => (c :: w) :: ws

def words (s : String) : List String := (runs s.toList).map String.ofList

end RungLogic.Text
