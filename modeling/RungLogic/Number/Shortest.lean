import RungLogic.Number.Form

/-!
The shortest decimal of a real: of all decimals that read back as the real, those with the fewest
digits, and of these the nearest. It is written positionally for moderate sizes and with an exponent
otherwise.
-/

set_option autoImplicit false
set_option relaxedAutoImplicit false

namespace RungLogic.Number

/-- A positive decimal, `digits * 10 ^ exponent`. -/
structure Decimal where
  digits : Nat
  exponent : Int
  deriving DecidableEq, Repr

/-- Four times the reals between which everything reads back as `m * 2 ^ e`, over `2 ^ e`, and
whether the two ends do so too. Below a power of two the neighbour is only half as far. -/
structure Gap where
  lower : Nat
  upper : Nat
  closed : Bool

def gapAround (m : Nat) (e : Int) : Gap :=
  { lower := if m = Nat.pow 2 52 && e ≠ -1074 then 4 * m - 1 else 4 * m - 2
    upper := 4 * m + 2
    closed := m % 2 = 0 }

/-- Compares `a * 2 ^ e` with `4 * d * 10 ^ k` by cross multiplication. -/
def compareGrid (a : Nat) (e : Int) (d : Nat) (k : Int) : Ordering :=
  compare (a * Nat.pow 2 e.toNat * Nat.pow 10 (-k).toNat)
    (4 * d * Nat.pow 10 k.toNat * Nat.pow 2 (-e).toNat)

/-- Whether the decimal reads back as `m * 2 ^ e`. -/
def readsBack (m : Nat) (e : Int) (c : Decimal) : Bool :=
  let gap := gapAround m e
  let low := compareGrid gap.lower e c.digits c.exponent
  let high := compareGrid gap.upper e c.digits c.exponent
  (low = .lt || (gap.closed && low = .eq)) && (high = .gt || (gap.closed && high = .eq))

/-- The whole part of `m * 2 ^ e / 10 ^ k`. -/
def gridFloor (m : Nat) (e : Int) (k : Int) : Nat :=
  m * Nat.pow 2 e.toNat * Nat.pow 10 (-k).toNat / (Nat.pow 10 k.toNat * Nat.pow 2 (-e).toNat)

/-- Of the two neighbours on the grid of `10 ^ k`, the one that reads back; of two, the nearer, and
the even one on a tie. -/
def onGrid? (m : Nat) (e : Int) (k : Int) : Option Decimal :=
  let d := gridFloor m e k
  let below : Decimal := ⟨d, k⟩
  let above : Decimal := ⟨d + 1, k⟩
  match readsBack m e below, readsBack m e above with
  | false, false => none
  | true, false => some below
  | false, true => some above
  | true, true =>
    -- twice the value against the sum of the neighbours
    match compare (4 * m * Nat.pow 2 e.toNat * Nat.pow 10 (-k).toNat * 2)
        (4 * (2 * d + 1) * Nat.pow 10 k.toNat * Nat.pow 2 (-e).toNat) with
    | .lt => some below
    | .gt => some above
    | .eq => some (if d % 2 = 0 then below else above)

/-- The decimal exponent of the first digit of `m * 2 ^ e`, for a positive `m`. -/
def leadingExponent (m : Nat) (e : Int) : Int :=
  -- 30103 / 100000 is close enough to the logarithm of two for all binary exponents
  let guess := (((m.log2 : Int) + e) * 30103).fdiv 100000
  if gridFloor m e (guess + 1) = 0 then guess else guess + 1

/-- The first grid, from coarse to fine, that holds a decimal which reads back. -/
def firstGrid? (m : Nat) (e : Int) : Nat → Int → Option Decimal
  | 0, _ => none
  | n + 1, k => match onGrid? m e k with
    | some c => some c
    | none => firstGrid? m e n (k - 1)

/-- Moves the zeros at the end of the digits into the exponent. -/
def stripZeros : Nat → Decimal → Decimal
  | 0, c => c
  | n + 1, c =>
    if c.digits % 10 = 0 then stripZeros n ⟨c.digits / 10, c.exponent + 1⟩ else c

/-- The shortest decimal of `m * 2 ^ e`, for a positive `m`: seventeen digits always suffice. -/
def shortest (m : Nat) (e : Int) : Decimal :=
  let k := leadingExponent m e
  stripZeros 17 ((firstGrid? m e 17 k).getD ⟨gridFloor m e (k - 16), k - 16⟩)

/-- How a decimal is laid out: decimal exponents from `low` to `high` are written positionally, and
an exponent has at least `width` digits. -/
structure Layout where
  low : Int
  high : Int
  width : Nat

/-- Reals are written positionally from one ten-thousandth up to sixteen digits before the point. -/
def layout : Layout := ⟨-4, 15, 2⟩

def zeros (n : Nat) : String := String.ofList (List.replicate n '0')

/-- Digits with a point after the first `place` of them; a whole number ends in a point and a zero.
-/
def positional (digits : String) (place : Int) : String :=
  let cs := digits.toList
  if place ≤ 0 then "0." ++ zeros (-place).toNat ++ digits
  else if (cs.length : Int) ≤ place then digits ++ zeros (place.toNat - cs.length) ++ ".0"
  else String.ofList (cs.take place.toNat) ++ "." ++ String.ofList (cs.drop place.toNat)

/-- Digits with a point after the first, and an exponent with its sign. -/
def scientific (l : Layout) (digits : String) (exponent : Int) : String :=
  let size := toString exponent.natAbs
  let body := match digits.toList with
    | c :: d :: rest => String.ofList (c :: '.' :: d :: rest)
    | _ => digits
  body ++ (if exponent < 0 then "e-" else "e+") ++ zeros (l.width - size.length) ++ size

def Decimal.text (l : Layout) (c : Decimal) : String :=
  let digits := toString c.digits
  let place := (digits.length : Int) + c.exponent
  if l.low ≤ place - 1 && place - 1 ≤ l.high then positional digits place
  else scientific l digits (place - 1)

def Form.text : Form → String
  | .undefined => "nan"
  | .infinite negative => if negative then "-inf" else "inf"
  | .finite negative m e =>
    (if negative then "-" else "") ++ (if m = 0 then "0.0" else (shortest m e).text layout)

def realText (x : Float) : String := (Form.ofReal x).text

end RungLogic.Number
