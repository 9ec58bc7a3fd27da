/-!
The operators of an instruction list.
-/

set_option autoImplicit false
set_option relaxedAutoImplicit false

namespace RungLogic

/-- What an instruction does to the accumulator. -/
inductive Operator where
  | ld | ldn | st | stn
  | and | andn | or | orn | xor | not
  | add | sub | mul | div
  | gt | ge | eq | ne | le | lt
  | ton | tof | tp | ctu | ctd | ctud
  | r | s
  deriving DecidableEq, Repr

namespace Operator

def all : List Operator :=
  [ld, ldn, st, stn, and, andn, or, orn, xor, not, add, sub, mul, div, gt, ge, eq, ne, le, lt,
    ton, tof, tp, ctu, ctd, ctud, r, s]

def name : Operator → String
  | ld => "LD"
  | ldn => "LDN"
  | st => "ST"
  | stn => "STN"
  | and => "AND"
  | andn => "ANDN"
  | or => "OR"
  | orn => "ORN"
  | xor => "XOR"
  | not => "NOT"
  | add => "ADD"
  | sub => "SUB"
  | mul => "MUL"
  | div => "DIV"
  | gt => "GT"
  | ge => "GE"
  | eq => "EQ"
  | ne => "NE"
  | le => "LE"
  | lt => "LT"
  | ton => "TON"
  | tof => "TOF"
  | tp => "TP"
  | ctu => "CTU"
  | ctd => "CTD"
  | ctud => "CTUD"
  | r => "R"
  | s => "S"

def ofName? (word : String) : Option Operator := all.find? fun o => o.name = word

theorem ofName?_name (o : Operator) : ofName? o.name = some o := by
  cases o <;> decide

theorem name_of_ofName? {word : String} {o : Operator} (h : ofName? word = some o) :
    o.name = word := by
  simpa using List.find?_some h

end Operator

end RungLogic
