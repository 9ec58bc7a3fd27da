import RungLogic.Simulation
import RungLogic.Instruction

/-!
The accumulator machine: the meaning of a program without a ladder. Once in a scan it goes through
the lines from top to bottom with an accumulator, which is empty at first and after each store. A
line with a timer or a counter has a state of its own.
-/

set_option autoImplicit false
set_option relaxedAutoImplicit false

namespace RungLogic.Accumulator

open Scan (holds)

/-- A line of a program with the state of its timer or counter. -/
structure Line where
  instruction : Instruction
  state : Option ElementState := none

def isOn (acc : Option Signal) : Bool := acc.any Signal.isOn

/-- The first side of a block: the accumulator, or zero when it is empty. -/
def firstSide (acc : Option Signal) : Signal := acc.getD (.num (.int 0))

/-- The truth of a variable; one that is missing is false. -/
def variableOn (store : Store) (operand : Option String) : Bool :=
  (operand.bind store.value?).any fun c => c.value.truthy

/-- The second side of a block: a number, a duration or a variable, and else zero. -/
def secondSide (store : Store) : Option String → Signal
  | none => .num (.int 0)
  | some s =>
    let name := Text.trim s
    match Number.readInteger? name, Number.readReal? name with
    | some i, _ => .num (.int i)
    | none, some x => .num (.real x)
    | none, none =>
      if "T#".toList.isPrefixOf name.toList then .num (.int (Preset.textDuration name))
      else ((store.value? name).map Content.signal).getD (.num (.int 0))

/-- The operand of a timer or counter, or what stands for a missing or empty one. -/
def presetOr (fallback : String) (operand : Option String) : String :=
  (operand.filter (· ≠ "")).getD fallback

/-- A number, or false where numbers do not go together. -/
def ofNumber (x : Option Number) : Signal := (x.map Signal.num).getD (.truth false)

/-- The quotient; by zero it is zero. -/
def quotient (a b : Number) : Signal := if b.isZero then .num (.int 0) else ofNumber (a.div? b)

def timer : Option ElementState → Timer
  | some (.timer t) => t
  | _ => {}

/-- The counter of a line; it begins as `fresh`. -/
def counter (fresh : Counter) : Option ElementState → Counter
  | some (.counter c) => c
  | _ => fresh

/-- What a timer loads and what it is then; where the clock readings do not go together it stays as
it is. -/
def ofTimer (state : Option ElementState) : Option (Timer × Bool) → Signal × Option ElementState
  | some (t, on) => (.truth on, some (.timer t))
  | none => (.truth false, state)

def ofCounter (p : Counter × Bool) : Signal × Option ElementState :=
  (.truth p.2, some (.counter p.1))

/-- What an operator that is no store loads, and the state that it leaves to its line; none for one
that does nothing. -/
def load? (store : Store) (now : Number) (operand : Option String) (acc : Option Signal)
    (state : Option ElementState) : Operator → Option (Signal × Option ElementState)
  | .ld => some (.truth (variableOn store operand), state)
  | .ldn => some (.truth (!variableOn store operand), state)
  | .and => some (.truth (acc.isSome && (isOn acc && variableOn store operand)), state)
  | .andn => some (.truth (acc.isSome && (isOn acc && !variableOn store operand)), state)
  | .or => some (.truth (acc.isSome && (isOn acc || variableOn store operand)), state)
  | .orn => some (.truth (acc.isSome && (isOn acc || !variableOn store operand)), state)
  | .not => some (.truth (!isOn acc), state)
  | .ton =>
    let preset := Preset.textDuration (presetOr "T#1s" operand)
    some (ofTimer state ((timer state).onDelay (isOn acc) preset now))
  | .tof =>
    let preset := Preset.textDuration (presetOr "T#1s" operand)
    some (ofTimer state ((timer state).offDelay (isOn acc) preset now))
  | .ctu =>
    let preset := Preset.count (.text (presetOr "10" operand))
    some (ofCounter ((counter {} state).up (isOn acc) false preset))
  | .ctd =>
    let preset := Preset.count (.text (presetOr "10" operand))
    some (ofCounter ((counter ⟨preset, false⟩ state).down (isOn acc) false preset))
  | .add => some (ofNumber ((firstSide acc).number.add? (secondSide store operand).number), state)
  | .sub => some (ofNumber ((firstSide acc).number.sub? (secondSide store operand).number), state)
  | .mul => some (ofNumber ((firstSide acc).number.mul? (secondSide store operand).number), state)
  | .div => some (quotient (firstSide acc).number (secondSide store operand).number, state)
  | .gt => compared .greaterThan
  | .ge => compared .greaterEqual
  | .eq => compared .equal
  | .ne => compared .notEqual
  | .le => compared .lessEqual
  | .lt => compared .lessThan
  | .st | .stn | .xor | .tp | .ctud | .r | .s => none
where
  /-- What a comparison loads. -/
  compared (kind : Kind) : Option (Signal × Option ElementState) :=
    some (.truth (holds kind (firstSide acc).number (secondSide store operand).number), state)

/-- Whether an operator stores the accumulator, and then whether it negates it. -/
def storesNegated? : Operator → Option Bool
  | .st => some false
  | .stn => some true
  | _ => none

/-- The variables after a store: an accumulator that is there goes to the variable that is named; a
write that is refused changes nothing. -/
def save (store : Store) (operand : Option String) (acc : Option Signal) (negated : Bool) : Store :=
  match acc, operand with
  | some a, some target =>
    if target = "" then store
    else match store.write (.text target) (.bool (a.isOn != negated)) with
      | .ok store => store
      | .error _ => store
  | _, _ => store

/-- What a line leaves. -/
structure Executed where
  line : Line
  acc : Option Signal
  store : Store

def Line.execute (l : Line) (now : Number) (acc : Option Signal) (store : Store) : Executed :=
  let operand := l.instruction.operand
  match storesNegated? l.instruction.operator with
  | some negated => ⟨l, none, save store operand acc negated⟩
  | none => match load? store now operand acc l.state l.instruction.operator with
    | some (s, state) => ⟨{ l with state := state }, some s, store⟩
    | none => ⟨l, acc, store⟩

def scan (now : Number) : List Line → Option Signal → Store → List Line × Store
  | [], _, store => ([], store)
  | l :: rest, acc, store =>
    let done := l.execute now acc store
    let last := scan now rest done.acc done.store
    (done.line :: last.1, last.2)

/-- A program that is running. -/
structure Machine where
  lines : List Line
  store : Store
  clock : Clock

def Machine.start (p : Program) (store : Store) (clock : Clock) : Machine :=
  ⟨p.map fun i => ⟨i, none⟩, store, clock⟩

/-- Runs one scan. The clock is read once, at its start. -/
def Machine.cycle (m : Machine) : Machine :=
  match m.clock.read with
  | .error _ => m
  | .ok (now, clock) =>
    let (lines, store) := scan now m.lines none m.store
    ⟨lines, store, clock⟩

end RungLogic.Accumulator
