import RungLogic.Instruction.Document
import RungLogic.Instruction.Line
import RungLogic.Json.Reader
import RungLogic.Json.Writer
import RungLogic.Network.Document
import RungLogic.Network.Drawing
import RungLogic.Settings
import RungLogic.Text.Lines

/-!
Workspaces: the files in and below a directory, as texts under their normal paths, and what stands
outside the program and reads them. Programs are kept as text or as documents, as the ending of the
path says; networks are kept as documents.
-/

set_option autoImplicit false
set_option relaxedAutoImplicit false

namespace RungLogic

/-- Files, directories beside those in which the files lie, and those who read files. -/
structure Workspace where
  files : Table String := []
  directories : List String := []
  /-- Files whose bytes are no text, with what is said of them; the text that stands for such a file
  counts for nothing. -/
  garbled : Table String := []
  /-- Why the reader of documents gives up on a text, if it does: it nests too deep to be read or to
  be shown in a message, or a numeral in it is too long. -/
  givesUp : String → Option ValueFault := fun _ => none
  /-- What comes of a text in the library that reads settings. -/
  readSettings : String → Settings.Reading := Settings.Reading.ofText

namespace Workspace

def isDirectory (w : Workspace) (parts : List String) : Bool :=
  parts.isEmpty || w.directories.contains ("/".intercalate parts) ||
    w.files.any fun f => parts.isPrefixOf (Path.parts f.1) && Path.parts f.1 ≠ parts

def isFile (w : Workspace) (parts : List String) : Bool := w.files.has ("/".intercalate parts)

/-- Why nothing can stand below the directories that a path goes through, from the first one on. -/
def wayFault? (w : Workspace) : List (List String) → Option FileFault
  | [] => none
  | parts :: rest =>
    if w.isFile parts then some .notADirectory
    else if w.isDirectory parts then w.wayFault? rest
    else some .missing

def way (parts : List String) : List (List String) :=
  (List.range parts.length).map fun n => parts.take n

def read (w : Workspace) (path : String) : Except Error String :=
  let parts := Path.parts path
  match w.wayFault? (way parts) with
  | some fault => .error (.file fault path)
  | none =>
    if w.isDirectory parts then .error (.file .isDirectory path)
    else match w.files.value? ("/".intercalate parts), w.garbled.value? ("/".intercalate parts) with
      | some text, none => .ok (Text.readText text)
      | some _, some reason => .error (.value (.undecodable reason))
      | none, _ => .error (.file .missing path)

/-- Writes a file; its directory has to be there. -/
def write (w : Workspace) (path text : String) : Except Error Workspace :=
  let parts := Path.parts path
  match w.wayFault? (way parts) with
  | some fault => .error (.file fault path)
  | none =>
    if w.isDirectory parts then .error (.file .isDirectory path)
    else .ok { w with
      files := w.files.put ("/".intercalate parts) text
      garbled := w.garbled.filter fun f => f.1 ≠ "/".intercalate parts }

/-- Whether a path says that a program is kept as text. -/
def keepsText (path : String) : Bool := [".il", ".txt"].contains (Path.lowerEnding path)

def readDocument (w : Workspace) (path : String) : Except Error Value := do
  let text ← w.read path
  match w.givesUp text with
  | some fault => .error (.value fault)
  | none => Json.read text

def loadProgram (w : Workspace) (path : String) : Except Error Program := do
  if keepsText path then
    let text ← w.read (Path.normal path)
    Program.parse text
  else
    let document ← w.readDocument (Path.normal path)
    Program.ofDocument document

def programText (path : String) (p : Program) : String :=
  if keepsText path then p.text ++ "\n" else Json.write p.document

def saveProgram (w : Workspace) (path : String) (p : Program) : Except Error Workspace :=
  w.write (Path.normal path) (programText path p)

def loadNetwork (w : Workspace) (path : String) : Except Error Network := do
  let document ← w.readDocument (Path.normal path)
  Network.ofDocument document

def saveNetwork (w : Workspace) (path : String) (n : Network) : Except Error Workspace :=
  w.write (Path.normal path) (Json.write n.document)

/-- Writes a drawing in the form that the ending of its path asks for; it has to have all labels. -/
def saveDrawing (w : Workspace) (path : String) (n : Network) (a : Activity) :
    Except Error (String × Workspace) := do
  let _ ← n.elements.mapM Element.toldLabel
  let text := n.drawing a (DrawingFormat.ofPath path)
  let w ← w.write path text
  return (text, w)

def loadSettings (w : Workspace) (path : String) : Except Error (Settings × List Notice) :=
  match w.read path with
  | .ok text => Settings.read (some (w.readSettings text))
  | .error _ => Settings.read none

/-- The path of the settings in a directory, if they are there. -/
def findSettings (w : Workspace) (directory : String) : Option String :=
  let path := Path.join directory Settings.fileName
  let parts := Path.parts path
  if w.isFile parts && (w.wayFault? (way parts)).isNone then some path else none

end Workspace

end RungLogic
