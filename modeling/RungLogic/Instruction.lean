import RungLogic.Error
import RungLogic.Operator
import RungLogic.Text.Blank

/-!
Instructions: an operator with an optional operand and an optional modifier. A modifier is a name;
an operand may be any text.
-/

set_option autoImplicit false
set_option relaxedAutoImplicit false

namespace RungLogic

/-- One line of an instruction list. -/
structure Instruction where
  operator : Operator
  operand : Option String := none
  modifier : Option String := none
  deriving DecidableEq, Repr

/-- A list of instructions, run from top to bottom. -/
abbrev Program := List Instruction

namespace Instruction

def Valid (i : Instruction) : Prop := ∀ m ∈ i.modifier, Text.isName m = true

def operatorOf? (v : Value) : Option Operator := v.text?.bind Operator.ofName?

/-- An absent part is null, one that is there has to be read by `read?`. -/
def partOf? (read? : Value → Option String) : Value → Option (Option String)
  | .null => some none
  | v => (read? v).map some

def faults (operator operand modifier : Value) : List Fault :=
  (if (operatorOf? operator).isSome then [] else [.unknownOperator operator]) ++
    (if (partOf? Value.text? operand).isSome then [] else [.operandNotText operand]) ++
    (if (partOf? Value.name? modifier).isSome then [] else [.modifierUnnamed modifier])

def ofValues (operator operand modifier : Value) : Except (List Fault) Instruction :=
  match operatorOf? operator, partOf? Value.text? operand, partOf? Value.name? modifier with
  | some o, some a, some m => .ok ⟨o, a, m⟩
  | _, _, _ => .error (faults operator operand modifier)

/-- The instruction that three values make; all faults are reported together. -/
def make (operator operand modifier : Value) : Except Error Instruction :=
  (ofValues operator operand modifier).mapError (.invalid .instruction)

/-- An instruction as a line: the operator, the modifier between parentheses, the operand after a
blank. -/
def text (i : Instruction) : String :=
  i.operator.name ++
    (match i.modifier with
      | some m => "(" ++ m ++ ")"
      | none => "") ++
    (match i.operand with
      | some a => " " ++ a
      | none => "")

theorem partOf?_eq_some_none {read? : Value → Option String} {v : Value}
    (h : partOf? read? v = some none) : v = .null := by
  cases v <;> simp [partOf?] at h ⊢

theorem partOf?_eq_some_some {read? : Value → Option String} {v : Value} {s : String}
    (h : partOf? read? v = some (some s)) : read? v = some s := by
  cases v <;> simp [partOf?] at h ⊢ <;> exact h

theorem make_eq {operand modifier : Option String} (word : String)
    (named : ∀ m ∈ modifier, Text.isName m = true) :
    make (.text word) (.ofText? operand) (.ofText? modifier) =
      match Operator.ofName? word with
      | some o => .ok ⟨o, operand, modifier⟩
      | none => .error (.invalid .instruction [.unknownOperator (.text word)]) := by
  have hoperator : operatorOf? (.text word) = Operator.ofName? word := rfl
  have hoperand : partOf? Value.text? (.ofText? operand) = some operand := by
    rcases operand with _ | a <;> rfl
  have hmodifier : partOf? Value.name? (.ofText? modifier) = some modifier := by
    rcases modifier with _ | m
    · rfl
    · have hname : Text.isName m = true := named m rfl
      simp [partOf?, Value.ofText?, Value.name?, hname]
  rcases ho : Operator.ofName? word with _ | o
  · simp only [make, ofValues, faults, hoperator, hoperand, hmodifier, ho]
    rfl
  · simp only [make, ofValues, hoperator, hoperand, hmodifier, ho]
    rfl

theorem Valid.make_eq {i : Instruction} (h : i.Valid) :
    make (.text i.operator.name) (.ofText? i.operand) (.ofText? i.modifier) = .ok i := by
  rw [Instruction.make_eq i.operator.name h, Operator.ofName?_name]

end Instruction

def Program.text (p : Program) : String := "\n".intercalate (p.map Instruction.text)

end RungLogic
