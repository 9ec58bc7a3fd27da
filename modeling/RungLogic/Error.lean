import RungLogic.Fault

/-!
Errors: the causes for which an operation gives no result, with the wording of each.
-/

set_option autoImplicit false
set_option relaxedAutoImplicit false

namespace RungLogic

/-- What can fail its checks. -/
inductive Entity where
  | instruction | variable | element | connection | network
  deriving DecidableEq, Repr

def Entity.name : Entity → String
  | .instruction => "IL instruction"
  | .variable => "variable"
  | .element => "LD element"
  | .connection => "LD connection"
  | .network => "LD network"

/-- The kinds of documents. -/
inductive DocumentKind where
  | program | network
  deriving DecidableEq, Repr

def DocumentKind.name : DocumentKind → String
  | .program => "IL JSON"
  | .network => "LD network JSON"

/-- Why a line is no instruction. -/
inductive LineFault where
  | empty
  | malformed (token : String)
  deriving DecidableEq, Repr

def LineFault.message : LineFault → String
  | .empty => "empty instruction line"
  | .malformed token => "malformed operator token '" ++ token ++ "'"

/-- Why a text or a list of pairs stands for no value. -/
inductive ValueFault where
  | notAnInteger (text : String)
  | notAReal (text : String)
  | notATruthValue (text : String)
  | noType (text : String)
  | notAPair (index length : Nat)
  | undefinedInteger
  | notALevel (text : String)
  /-- An integer has more digits than are written. -/
  | unwritable
  /-- A numeral has more digits than are read. -/
  | unreadable (digits : Nat)
  /-- The bytes of a text have no meaning. -/
  | undecodable (reason : String)
  /-- A text nests deeper than can be followed. -/
  | tooDeep
  deriving DecidableEq, Repr

def beginning (width : Nat) (s : String) : String := String.ofList (s.toList.take width)

/-- What is said of an integer with too many digits, with its number of digits where it is known. -/
def digitsMessage (counted : String) : String :=
  "Exceeds the limit (" ++ toString Number.digitLimit ++ " digits) for integer string conversion" ++
    counted ++ "; use sys.set_int_max_str_digits() to increase the limit"

/-- The wording of a fault of a value. A text that should be an integer is quoted up to 200
characters. -/
def ValueFault.message : ValueFault → String
  | .notAnInteger text =>
    "invalid literal for int() with base 10: " ++ beginning 200 (Text.quoted text)
  | .notAReal text => "could not convert string to float: " ++ Text.quoted text
  | .notATruthValue text => "'" ++ text ++ "' is not a boolean"
  | .noType text => "cannot infer a type for '" ++ text ++ "'"
  | .notAPair index length =>
    "dictionary update sequence element #" ++ toString index ++ " has length " ++ toString length ++
      "; 2 is required"
  | .undefinedInteger => "cannot convert float NaN to integer"
  | .notALevel text => "Unknown level: " ++ Text.quoted text
  | .unwritable => digitsMessage ""
  | .unreadable digits => digitsMessage (": value has " ++ toString digits ++ " digits")
  | .undecodable reason => reason
  | .tooDeep => "maximum recursion depth exceeded"

/-- Why a text is no JSON document. -/
inductive JsonFault where
  | byteOrderMark
  | value
  | propertyName
  | colon
  | comma
  | extra
  | unterminated
  | controlCharacter
  | escape
  | hexEscape
  deriving DecidableEq, Repr

def JsonFault.message : JsonFault → String
  | .byteOrderMark => "Unexpected UTF-8 BOM (decode using utf-8-sig)"
  | .value => "Expecting value"
  | .propertyName => "Expecting property name enclosed in double quotes"
  | .colon => "Expecting ':' delimiter"
  | .comma => "Expecting ',' delimiter"
  | .extra => "Extra data"
  | .unterminated => "Unterminated string starting at"
  | .controlCharacter => "Invalid control character at"
  | .escape => "Invalid \\escape"
  | .hexEscape => "Invalid \\uXXXX escape"

/-- A place in a text: line and column count from one, the offset from zero. -/
structure TextPlace where
  line : Nat
  column : Nat
  offset : Nat
  deriving DecidableEq, Repr

/-- Why a file cannot be read or written. -/
inductive FileFault where
  | missing
  | isDirectory
  | notADirectory
  deriving DecidableEq, Repr

def FileFault.message : FileFault → String
  | .missing => "[Errno 2] No such file or directory: "
  | .isDirectory => "[Errno 21] Is a directory: "
  | .notADirectory => "[Errno 20] Not a directory: "

/-- Why an operation gives no result. -/
inductive Error where
  /-- A line of a program is malformed. -/
  | line (fault : LineFault) (number : Option Nat)
  /-- An entity fails its checks. -/
  | invalid (entity : Entity) (faults : List Fault)
  /-- A document fails its checks. -/
  | document (kind : DocumentKind) (faults : List DocumentFault)
  /-- An evaluation comes back to an element it has not finished. -/
  | cycle (path : List String)
  /-- A text or list stands for no value of the wanted type. -/
  | value (fault : ValueFault)
  /-- A value has the wrong shape for its use. -/
  | shape
  /-- A value lacks the part that is asked for. -/
  | part
  /-- An integer is too large for a real. -/
  | tooLarge
  /-- A reference names nothing. -/
  | unknown (id : String)
  /-- A text is no JSON document. -/
  | json (fault : JsonFault) (place : TextPlace)
  /-- A file cannot be read or written. -/
  | file (fault : FileFault) (path : String)
  /-- A scan of the runner fails. -/
  | scanFailed

namespace Error

/-- The faults of an error that lists them, with what they are found in. -/
def report? : Error → Option (String × List String)
  | .invalid entity faults => some (entity.name, faults.map Fault.message)
  | .document kind faults => some (kind.name, faults.map DocumentFault.message)
  | _ => none

def reportText (subject : String) (faults : List String) : String :=
  "Invalid " ++ subject ++ ": " ++ "; ".intercalate faults

def message : Error → String
  | .line fault none => fault.message
  | .line fault (some number) => "line " ++ toString number ++ ": " ++ fault.message
  | .invalid entity faults => reportText entity.name (faults.map Fault.message)
  | .document kind faults => reportText kind.name (faults.map DocumentFault.message)
  | .cycle path => "Cyclic network detected: " ++ " -> ".intercalate path
  | .value fault => fault.message
  | .shape => "a value has the wrong shape"
  | .part => "a value lacks a part"
  | .tooLarge => "int too large to convert to float"
  | .unknown id => Text.quoted id
  | .json fault place =>
    fault.message ++ ": line " ++ toString place.line ++ " column " ++ toString place.column ++
      " (char " ++ toString place.offset ++ ")"
  | .file fault path => fault.message ++ Text.quoted path
  | .scanFailed => "scan failed"

end Error

def Value.told (v : Value) : Except Error String :=
  if v.isLong then .error (.value .unwritable) else .ok v.plain

end RungLogic
