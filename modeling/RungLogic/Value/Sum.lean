import RungLogic.Error

/-!
Sums of plain values, and placements moved by them.
-/

set_option autoImplicit false
set_option relaxedAutoImplicit false

namespace RungLogic

/-- The sum of two values: numbers are added, texts and lists are joined. -/
def Value.sum : Value → Value → Except Error Value
  | .text a, .text b => .ok (.text (a ++ b))
  | .list a, .list b => .ok (.list (a ++ b))
  | a, b => match a.number?, b.number? with
    | some m, some n => match m.add? n with
      | some s => .ok (.num s)
      | none => .error .tooLarge
    | _, _ => .error .shape

def Placement.moved (dx dy : Value) : Placement → Except Error Placement
  | .coords x y => do
    let x ← x.sum dx
    let y ← y.sum dy
    return .coords x y
  | .other _ => .error .part

end RungLogic
