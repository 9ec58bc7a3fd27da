/-!
The exact form of a real: its bits give a sign, a natural mantissa and a power of two. Comparisons
and the shortest decimal are computed on this form, without rounding.
-/

set_option autoImplicit false
set_option relaxedAutoImplicit false

namespace RungLogic.Number

/-- What the bits of a real stand for; a finite one is `mantissa * 2 ^ exponent` with its sign. -/
inductive Form where
  | undefined
  | infinite (negative : Bool)
  | finite (negative : Bool) (mantissa : Nat) (exponent : Int)
  deriving DecidableEq, Repr

/-- Reads the 64 bits: one of sign, eleven of exponent, fifty-two of mantissa. -/
def Form.ofBits (bits : Nat) : Form :=
  let negative : Bool := bits / Nat.pow 2 63 % 2 == 1
  let exponent : Nat := bits / Nat.pow 2 52 % Nat.pow 2 11
  let fraction : Nat := bits % Nat.pow 2 52
  if exponent = 2047 then
    if fraction = 0 then .infinite negative else .undefined
  else if exponent = 0 then .finite negative fraction (-1074)
  else .finite negative (Nat.pow 2 52 + fraction) ((exponent : Int) - 1075)

def Form.ofReal (x : Float) : Form := .ofBits x.toBits.toNat

def signed (negative : Bool) (mantissa : Nat) : Int :=
  if negative then -(mantissa : Int) else mantissa

/-- Compares `m * 2 ^ e` with `n * 2 ^ f` by writing both over the smaller power. -/
def compareScaled (m : Int) (e : Int) (n : Int) (f : Int) : Ordering :=
  let low := min e f
  compare (m * Nat.pow 2 (e - low).toNat) (n * Nat.pow 2 (f - low).toNat)

/-- Compares two forms as numbers; an undefined one compares with none, and both zeros are equal. -/
def Form.compare? : Form → Form → Option Ordering
  | .undefined, _ => none
  | _, .undefined => none
  | .infinite s, .infinite t => some (compare t s)
  | .infinite s, .finite .. => some (if s then .lt else .gt)
  | .finite .., .infinite t => some (if t then .gt else .lt)
  | .finite s m e, .finite t n f => some (compareScaled (signed s m) e (signed t n) f)

/-- The integer next to the form on the side of zero, if it is finite. -/
def Form.truncate? : Form → Option Int
  | .finite negative m e => some (signed negative (m * Nat.pow 2 e.toNat / Nat.pow 2 (-e).toNat))
  | _ => none

end RungLogic.Number
