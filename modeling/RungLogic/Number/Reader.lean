import RungLogic.Text.Blank
import RungLogic.Text.Digit

/-!
Numbers read from text. Blanks around the number are dropped, digits of every script count, and
single underscores may stand between digits. An integer has an optional sign and digits; a real may
have a point, an exponent, or be one of the words for infinity and the undefined number.
-/

set_option autoImplicit false
set_option relaxedAutoImplicit false

namespace RungLogic.Number

/-- The blanks allowed around a number: all but the four information separators. -/
def isNumberBlank (c : Char) : Bool :=
  Text.isBlank c && !(28 ≤ c.toNat && c.toNat ≤ 31)

/-- Digits, with single underscores between them. -/
def digitGroup? : List Char → Option (List Nat)
  | [] => none
  | [c] => (Text.digitValue? c).map fun d => [d]
  | c :: '_' :: rest => do
    let d ← Text.digitValue? c
    let ds ← digitGroup? rest
    return d :: ds
  | c :: rest => do
    let d ← Text.digitValue? c
    let ds ← digitGroup? rest
    return d :: ds

def ofDigits (ds : List Nat) : Nat := ds.foldl (fun n d => 10 * n + d) 0

/-- Takes a sign off the front; no sign means plus. -/
def takeSign : List Char → Bool × List Char
  | '+' :: rest => (false, rest)
  | '-' :: rest => (true, rest)
  | cs => (false, cs)

def signedDigits? (cs : List Char) : Option Int := do
  let (negative, rest) := takeSign cs
  let ds ← digitGroup? rest
  let n : Int := ofDigits ds
  return if negative then -n else n

def readInteger? (s : String) : Option Int :=
  signedDigits? (Text.trimBy isNumberBlank s.toList)

def optionalGroup? (cs : List Char) : Option (List Nat) :=
  if cs.isEmpty then some [] else digitGroup? cs

/-- Cuts a text at the first character that satisfies the test; the character itself is dropped. -/
def cutAt (p : Char → Bool) : List Char → List Char × Option (List Char)
  | [] => ([], none)
  | c :: rest =>
    if p c then ([], some rest)
    else let (before, after) := cutAt p rest
      (c :: before, after)

/-- Digits with an optional point and an optional exponent, as digits and a power of ten. -/
def decimal? (cs : List Char) : Option (Nat × Int) := do
  let (mantissa, power) := cutAt (fun c => c = 'e' || c = 'E') cs
  let (whole, part) := cutAt (fun c => c = '.') mantissa
  let wholeDigits ← optionalGroup? whole
  let partDigits ← optionalGroup? (part.getD [])
  if wholeDigits.isEmpty && partDigits.isEmpty then none
  else
    let exponent ← match power with
      | none => some 0
      | some ps => signedDigits? ps
    return (ofDigits (wholeDigits ++ partDigits), exponent - partDigits.length)

/-- The real nearest to `n * 10 ^ e`. -/
def ofDecimal (n : Nat) (e : Int) : Float := Float.ofScientific n (e < 0) e.natAbs

/-- The words for numbers without digits, in lower case. -/
def namedReal? (word : List Char) : Option Float :=
  let name := String.ofList (word.map Char.toLower)
  if name = "inf" || name = "infinity" then some (1.0 / 0.0)
  else if name = "nan" then some (0.0 / 0.0)
  else none

def readReal? (s : String) : Option Float := do
  let (negative, rest) := takeSign (Text.trimBy isNumberBlank s.toList)
  let x ← match namedReal? rest with
    | some x => some x
    | none => (decimal? rest).map fun d => ofDecimal d.1 d.2
  return if negative then -x else x

end RungLogic.Number
