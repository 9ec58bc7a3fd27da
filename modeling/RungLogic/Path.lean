import RungLogic.Text.Blank

/-!
Paths: names divided by slashes. Empty parts and parts of a single point mean nothing. The ending of
a path is what follows the last point of its last part, unless the point is first or last there.
-/

set_option autoImplicit false
set_option relaxedAutoImplicit false

namespace RungLogic.Path

def pieces : List Char → List (List Char)
  | [] => [[]]
  | c :: rest =>
    if c = '/' then [] :: pieces rest
    else match pieces rest with
      | [] => [[c]]
      | p :: ps => (c :: p) :: ps

/-- The parts of a path; one that begins at the root has the slash as its first part. -/
def parts (path : String) : List String :=
  let named := ((pieces path.toList).map String.ofList).filter fun p => p ≠ "" && p ≠ "."
  if path.toList.head? = some '/' then "/" :: named else named

def normal (path : String) : String :=
  match parts path with
  | [] => "."
  | "/" :: rest => "/" ++ "/".intercalate rest
  | ps => "/".intercalate ps

def name (path : String) : String := (parts path).getLast?.getD ""

def ending (path : String) : String :=
  let reversed := (name path).toList.reverse
  let after := reversed.takeWhile (· ≠ '.')
  match reversed.drop after.length with
  | '.' :: _ :: _ => if after.isEmpty then "" else "." ++ String.ofList after.reverse
  | _ => ""

/-- The ending in lower case; only ASCII letters need it, for that is what known endings are made
of. -/
def lowerEnding (path : String) : String := (ending path).map Char.toLower

def join (directory name : String) : String := directory ++ "/" ++ name

end RungLogic.Path
