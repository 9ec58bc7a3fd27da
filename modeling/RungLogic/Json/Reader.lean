import RungLogic.Error

/-!
JSON texts read into values. Whole numbers become integers, the others reals; the words for infinity
and the undefined number are accepted; of entries with one name the last value counts, at the first
place. Texts may nest as deep and numerals be as long as they like; where a reader of documents gives
up on them is not decided here, but with the workspace.
-/

set_option autoImplicit false
set_option relaxedAutoImplicit false

namespace RungLogic.Json

/-- A fault and the text from the faulty place on. -/
structure Stop where
  fault : JsonFault
  rest : List Char

/-- The result of reading a part: the part and the text after it. -/
abbrev Read (α : Type) := Except Stop (α × List Char)

def isSpace (c : Char) : Bool := c = ' ' || c = '\t' || c = '\n' || c = '\r'

/-- The text from the next character on that is no blank. -/
def skip (cs : List Char) : List Char := cs.dropWhile isSpace

def hexValue? (c : Char) : Option Nat :=
  let n := c.toNat
  if 48 ≤ n && n ≤ 57 then some (n - 48)
  else if 65 ≤ n && n ≤ 70 then some (n - 55)
  else if 97 ≤ n && n ≤ 102 then some (n - 87)
  else none

def hexUnit? (a b c d : Char) : Option Nat := do
  let a ← hexValue? a
  let b ← hexValue? b
  let c ← hexValue? c
  let d ← hexValue? d
  return ((a * 16 + b) * 16 + c) * 16 + d

def isHigh (n : Nat) : Bool := 0xD800 ≤ n && n ≤ 0xDBFF

def isLow (n : Nat) : Bool := 0xDC00 ≤ n && n ≤ 0xDFFF

/-- The character of a unit that stands alone; half a pair becomes the replacement character. -/
def unitChar (n : Nat) : Char := if isHigh n || isLow n then '\ufffd' else Char.ofNat n

def pairChar (high low : Nat) : Char :=
  Char.ofNat (0x10000 + (high - 0xD800) * 0x400 + (low - 0xDC00))

def shortEscape? : Char → Option Char
  | '"' => some '"'
  | '\\' => some '\\'
  | '/' => some '/'
  | 'b' => some '\x08'
  | 'f' => some '\x0c'
  | 'n' => some '\n'
  | 'r' => some '\r'
  | 't' => some '\t'
  | _ => none

def prepend (c : Char) : Read (List Char) → Read (List Char)
  | .ok (cs, rest) => .ok (c :: cs, rest)
  | .error stop => .error stop

/-- The characters of a string up to its closing quote; `start` is the text from the opening quote
on. -/
def stringBody (start : List Char) : List Char → Read (List Char)
  | [] => .error ⟨.unterminated, start⟩
  | '"' :: rest => .ok ([], rest)
  | '\\' :: 'u' :: a :: b :: c :: d :: '\\' :: 'u' :: e :: f :: g :: h :: rest =>
    match hexUnit? a b c d with
    | none => .error ⟨.hexEscape, 'u' :: a :: b :: c :: d :: '\\' :: 'u' :: e :: f :: g :: h :: rest⟩
    | some high =>
      match hexUnit? e f g h with
      | some low =>
        if isHigh high && isLow low then prepend (pairChar high low) (stringBody start rest)
        else prepend (unitChar high) (stringBody start ('\\' :: 'u' :: e :: f :: g :: h :: rest))
      | none => prepend (unitChar high) (stringBody start ('\\' :: 'u' :: e :: f :: g :: h :: rest))
  | '\\' :: 'u' :: a :: b :: c :: d :: rest =>
    match hexUnit? a b c d with
    | none => .error ⟨.hexEscape, 'u' :: a :: b :: c :: d :: rest⟩
    | some unit => prepend (unitChar unit) (stringBody start rest)
  | '\\' :: 'u' :: rest => .error ⟨.hexEscape, 'u' :: rest⟩
  | '\\' :: c :: rest =>
    match shortEscape? c with
    | some e => prepend e (stringBody start rest)
    | none => .error ⟨.escape, '\\' :: c :: rest⟩
  | ['\\'] => .error ⟨.unterminated, start⟩
  | c :: rest =>
    if c.toNat < 32 then .error ⟨.controlCharacter, c :: rest⟩
    else prepend c (stringBody start rest)
  termination_by cs => cs.length

def takeDigits (cs : List Char) : List Char × List Char :=
  (cs.takeWhile Char.isDigit, cs.dropWhile Char.isDigit)

def digitsValue (cs : List Char) : Nat := cs.foldl (fun n c => 10 * n + (c.toNat - 48)) 0

/-- The whole part of a number: a zero, or digits that do not begin with one. -/
def wholePart? : List Char → Option (List Char × List Char)
  | '0' :: rest => some (['0'], rest)
  | cs => match takeDigits cs with
    | ([], _) => none
    | (ds, rest) => some (ds, rest)

def fractionPart (cs : List Char) : List Char × List Char :=
  match cs with
  | '.' :: rest => match takeDigits rest with
    | ([], _) => ([], cs)
    | (ds, rest) => (ds, rest)
  | _ => ([], cs)

def exponentPart (cs : List Char) : Option Int × List Char :=
  match cs with
  | c :: rest =>
    if c = 'e' || c = 'E' then
      let (negative, digits) := Number.takeSign rest
      match takeDigits digits with
      | ([], _) => (none, cs)
      | (ds, after) =>
        let n : Int := digitsValue ds
        (some (if negative then -n else n), after)
    else (none, cs)
  | [] => (none, cs)

/-- A number; it is whole when it has neither point nor exponent. -/
def number? (negative : Bool) (cs : List Char) : Option (Number × List Char) := do
  let (whole, rest) ← wholePart? cs
  let (fraction, rest) := fractionPart rest
  let (exponent, rest) := exponentPart rest
  let digits := digitsValue (whole ++ fraction)
  if fraction.isEmpty && exponent.isNone then
    return (.int (if negative then -(digits : Int) else digits), rest)
  else
    let x := Number.ofDecimal digits (exponent.getD 0 - fraction.length)
    return (.real (if negative then -x else x), rest)

def dropWord? : List Char → List Char → Option (List Char)
  | [], cs => some cs
  | w :: ws, c :: cs => if w = c then dropWord? ws cs else none
  | _ :: _, [] => none

/-- A value without parts that is no string. -/
def scalar? (cs : List Char) : Option (Value × List Char) :=
  let word (w : String) (v : Value) : Option (Value × List Char) :=
    (dropWord? w.toList cs).map fun rest => (v, rest)
  match cs with
  | 'n' :: _ => word "null" .null
  | 't' :: _ => word "true" (.bool true)
  | 'f' :: _ => word "false" (.bool false)
  | 'N' :: _ => word "NaN" (.num (.real (0.0 / 0.0)))
  | 'I' :: _ => word "Infinity" (.num (.real (1.0 / 0.0)))
  | '-' :: 'I' :: _ => word "-Infinity" (.num (.real (-1.0 / 0.0)))
  | '-' :: rest => (number? true rest).map fun r => (.num r.1, r.2)
  | _ => (number? false cs).map fun r => (.num r.1, r.2)

mutual

/-- Reads a value; the first argument bounds the steps. -/
def value : Nat → List Char → Read Value
  | 0, cs => .error ⟨.value, cs⟩
  | n + 1, cs =>
    match cs with
    | '"' :: rest => match stringBody cs rest with
      | .ok (s, after) => .ok (.text (String.ofList s), after)
      | .error stop => .error stop
    | '\x7b' :: rest => match skip rest with
      | '\x7d' :: after => .ok (.record [], after)
      | inside => match entries n inside with
        | .ok (es, after) => .ok (.record (Table.ofPairs es), after)
        | .error stop => .error stop
    | '[' :: rest => match skip rest with
      | ']' :: after => .ok (.list [], after)
      | inside => match items n inside with
        | .ok (vs, after) => .ok (.list vs, after)
        | .error stop => .error stop
    | _ => match scalar? cs with
      | some r => .ok r
      | none => .error ⟨.value, cs⟩

def items : Nat → List Char → Read (List Value)
  | 0, cs => .error ⟨.value, cs⟩
  | n + 1, cs => match value n cs with
    | .error stop => .error stop
    | .ok (v, rest) => match skip rest with
      | ',' :: more => match items n (skip more) with
        | .ok (vs, after) => .ok (v :: vs, after)
        | .error stop => .error stop
      | ']' :: after => .ok ([v], after)
      | other => .error ⟨.comma, other⟩

def entries : Nat → List Char → Read (List (String × Value))
  | 0, cs => .error ⟨.value, cs⟩
  | n + 1, cs => match cs with
    | '"' :: rest => match stringBody cs rest with
      | .error stop => .error stop
      | .ok (name, rest) => match skip rest with
        | ':' :: rest => match value n (skip rest) with
          | .error stop => .error stop
          | .ok (v, rest) => match skip rest with
            | ',' :: more => match entries n (skip more) with
              | .ok (es, after) => .ok ((String.ofList name, v) :: es, after)
              | .error stop => .error stop
            | '\x7d' :: after => .ok ([(String.ofList name, v)], after)
            | other => .error ⟨.comma, other⟩
        | other => .error ⟨.colon, other⟩
    | other => .error ⟨.propertyName, other⟩

end

def placeAfter (before : List Char) : TextPlace :=
  { line := before.count '\n' + 1
    column := (before.reverse.takeWhile (· ≠ '\n')).length + 1
    offset := before.length }

def read (s : String) : Except Error Value :=
  let cs := s.toList
  let fail (stop : Stop) : Error :=
    .json stop.fault (placeAfter (cs.take (cs.length - stop.rest.length)))
  if cs.head? = some '\ufeff' then .error (fail ⟨.byteOrderMark, cs⟩)
  else match value (2 * cs.length + 2) (skip cs) with
    | .error stop => .error (fail stop)
    | .ok (v, rest) => match skip rest with
      | [] => .ok v
      | other => .error (fail ⟨.extra, other⟩)

end RungLogic.Json
