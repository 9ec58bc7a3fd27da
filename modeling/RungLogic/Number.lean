import RungLogic.Number.Shortest

/-!
Numbers are integers without bound or reals. Arithmetic stays in the integers while both sides are
integers; else the integer is turned into a real, which fails when it is too large for one.
Comparison is exact between all of them.
-/

set_option autoImplicit false
set_option relaxedAutoImplicit false

namespace RungLogic

/-- An integer or a real. -/
inductive Number where
  | int (i : Int)
  | real (x : Float)

namespace Number

/-- The real nearest to the number, unless the number is too large for one. -/
def toReal? : Number → Option Float
  | .real x => some x
  | .int i => let x := Float.ofInt i; if x.isInf then none else some x

/-- Applies the integer operation to two integers and the real one otherwise. -/
def combine? (onInt : Int → Int → Int) (onReal : Float → Float → Float) :
    Number → Number → Option Number
  | .int a, .int b => some (.int (onInt a b))
  | a, b => do
    let x ← a.toReal?
    let y ← b.toReal?
    return .real (onReal x y)

def add? : Number → Number → Option Number := combine? (· + ·) (· + ·)

def sub? : Number → Number → Option Number := combine? (· - ·) (· - ·)

def mul? : Number → Number → Option Number := combine? (· * ·) (· * ·)

/-- The quotient by a number other than zero; between integers it is cut off toward zero. -/
def div? : Number → Number → Option Number := combine? Int.tdiv (· / ·)

def form : Number → Form
  | .int i => .finite (i < 0) i.natAbs 0
  | .real x => Form.ofReal x

/-- Compares two numbers exactly; an undefined number compares with none. -/
def compare? : Number → Number → Option Ordering
  | .int a, .int b => some (compare a b)
  | a, b => a.form.compare? b.form

def ge (a b : Number) : Bool := (a.compare? b).any Ordering.isGE

def same (a b : Number) : Bool := a.compare? b = some .eq

def isZero (a : Number) : Bool := a.same (.int 0)

def text : Number → String
  | .int i => toString i
  | .real x => realText x

theorem add?_int (a b : Int) : add? (.int a) (.int b) = some (.int (a + b)) := rfl

theorem sub?_int (a b : Int) : sub? (.int a) (.int b) = some (.int (a - b)) := rfl

theorem ge_int (a b : Int) : ge (.int a) (.int b) = decide (b ≤ a) := by
  cases h : compare a b with
  | lt => have := Int.compare_eq_lt.mp h; simp [ge, compare?, h]; omega
  | eq => have := Int.compare_eq_eq.mp h; simp [ge, compare?, h]; omega
  | gt => have := Int.compare_eq_gt.mp h; simp [ge, compare?, h]; omega

end Number

end RungLogic
