import RungLogic.Document.Entries
import RungLogic.Instruction

/-!
Programs as documents: a record `program` with a list `instructions` of records. Reading takes all
entries or none, and reports every entry that is refused.
-/

set_option autoImplicit false
set_option relaxedAutoImplicit false

namespace RungLogic

namespace Instruction

def entry (i : Instruction) : Value :=
  .record [("operator", .text i.operator.name), ("operand", Value.ofText? i.operand),
    ("modifier", Value.ofText? i.modifier)]

/-- Reads an entry; the operand and the modifier may be missing. -/
def ofEntry : Value → Except (List EntryFault) Instruction
  | .record fields =>
    match Table.value? "operator" fields with
    | none => .error [.operatorMissing]
    | some operator =>
      Document.refuse
        (ofValues operator (Value.field "operand" fields) (Value.field "modifier" fields))
  | given => .error [.notARecord given]

end Instruction

namespace Program

def document (p : Program) : Value :=
  .record [("program", .record [("instructions", .list (p.map Instruction.entry))])]

def entries? : Value → Option (List Value)
  | .record fields => match Value.field "program" fields with
    | .record inner => match Value.field "instructions" inner with
      | .list entries => some entries
      | _ => none
    | _ => none
  | _ => none

def ofDocument (document : Value) : Except Error Program :=
  match entries? document with
  | none => .error (.document .program [.notAProgram])
  | some entries =>
    match Document.readEntries Place.instruction Instruction.ofEntry entries with
    | ([], program) => .ok program
    | (faults, _) => .error (.document .program faults)

end Program

end RungLogic
