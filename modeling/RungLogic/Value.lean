import RungLogic.Number.Limit
import RungLogic.Table
import RungLogic.Text.Quoted

/-!
Plain data: what documents, settings and element properties are made of. A value is null, a truth
value, a number, a text, a list of values or a record of named values.
-/

set_option autoImplicit false
set_option relaxedAutoImplicit false

namespace RungLogic

/-- A plain value. The entries of a record have distinct names. -/
inductive Value where
  | null
  | bool (b : Bool)
  | num (n : Number)
  | text (s : String)
  | list (items : List Value)
  | record (entries : List (String × Value))

namespace Value

abbrev int (i : Int) : Value := .num (.int i)

/-- A text that may be absent; an absent one is null. -/
def ofText? : Option String → Value
  | some s => .text s
  | none => .null

def kindName : Value → String
  | .null => "NoneType"
  | .bool _ => "bool"
  | .num (.int _) => "int"
  | .num (.real _) => "float"
  | .text _ => "str"
  | .list _ => "list"
  | .record _ => "dict"

def boolText (b : Bool) : String := if b then "True" else "False"

mutual

/-- A value as messages show it: texts in quotes, lists and records in brackets. -/
def shown : Value → String
  | .null => "None"
  | .bool b => boolText b
  | .num n => n.text
  | .text s => Text.quoted s
  | .list items => "[" ++ ", ".intercalate (shownItems items) ++ "]"
  | .record entries => "\x7b" ++ ", ".intercalate (shownEntries entries) ++ "\x7d"

def shownItems : List Value → List String
  | [] => []
  | v :: rest => v.shown :: shownItems rest

def shownEntries : List (String × Value) → List String
  | [] => []
  | (k, v) :: rest => (Text.quoted k ++ ": " ++ v.shown) :: shownEntries rest

end

/-- A value as it stands in running text: a text stands for itself. -/
def plain : Value → String
  | .text s => s
  | v => v.shown

mutual

/-- Whether an integer in a value has more digits than it can be written with. -/
def isLong : Value → Bool
  | .num n => n.isLong
  | .list items => anyLong items
  | .record entries => anyLongEntry entries
  | .null | .bool _ | .text _ => false

def anyLong : List Value → Bool
  | [] => false
  | v :: rest => v.isLong || anyLong rest

def anyLongEntry : List (String × Value) → Bool
  | [] => false
  | (_, v) :: rest => v.isLong || anyLongEntry rest

end

/-- Whether a value counts as true: all do but null, false, zero and what is empty. -/
def truthy : Value → Bool
  | .null => false
  | .bool b => b
  | .num n => !n.isZero
  | .text s => s ≠ ""
  | .list items => !items.isEmpty
  | .record entries => !entries.isEmpty

/-- Only values without parts can be keys. -/
def canBeKey : Value → Bool
  | .list _ => false
  | .record _ => false
  | _ => true

/-- A truth value counts as zero or one, a number as itself. -/
def number? : Value → Option Number
  | .bool b => some (.int (if b then 1 else 0))
  | .num n => some n
  | _ => none

mutual

/-- Equality of values: numbers and truth values are equal when they are as numbers, and the order
of a record does not count. -/
def same : Value → Value → Bool
  | .null, .null => true
  | .text a, .text b => a = b
  | .list a, .list b => sameItems a b
  | .record a, .record b => a.length = b.length && sameEntries a b
  | a, b => match a.number?, b.number? with
    | some m, some n => m.same n
    | _, _ => false

def sameItems : List Value → List Value → Bool
  | [], [] => true
  | a :: as, b :: bs => a.same b && sameItems as bs
  | _, _ => false

/-- Whether each entry has an equal one of the same name in the other record. -/
def sameEntries : List (String × Value) → Table Value → Bool
  | [], _ => true
  | (k, v) :: rest, other =>
    (match other.value? k with
      | some w => v.same w
      | none => false) && sameEntries rest other

end

/-- The parts of a value that has parts one after the other: characters, items or names. -/
def parts? : Value → Option (List Value)
  | .text s => some (s.toList.map fun c => .text c.toString)
  | .list items => some items
  | .record entries => some (entries.map fun e => .text e.1)
  | _ => none

def text? : Value → Option String
  | .text s => some s
  | _ => none

/-- The value as a name: a text that holds more than blanks. -/
def name? : Value → Option String
  | .text s => if Text.isName s then some s else none
  | _ => none

def isName (v : Value) : Bool := v.name?.isSome

/-- The entry of that name, null when there is none. -/
def field (name : String) (entries : Table Value) : Value := (entries.value? name).getD .null

end Value

end RungLogic
