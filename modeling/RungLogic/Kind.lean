/-!
The kinds of ladder elements. A kind fixes the ports of its elements; the first input and the first
output are the primary ones, along which a rung runs.
-/

set_option autoImplicit false
set_option relaxedAutoImplicit false

namespace RungLogic

/-- What an element is. -/
inductive Kind where
  | contact | contactNegated | coil | coilNegated
  | and | or | not
  | timerOn | timerOff | timerPulse
  | counterUp | counterDown | counterUpDown
  | add | subtract | multiply | divide
  | greaterThan | greaterEqual | equal | notEqual | lessEqual | lessThan
  deriving DecidableEq, Repr

namespace Kind

def all : List Kind :=
  [contact, contactNegated, coil, coilNegated, and, or, not, timerOn, timerOff, timerPulse,
    counterUp, counterDown, counterUpDown, add, subtract, multiply, divide,
    greaterThan, greaterEqual, equal, notEqual, lessEqual, lessThan]

def name : Kind → String
  | contact => "contact"
  | contactNegated => "contact_negated"
  | coil => "coil"
  | coilNegated => "coil_negated"
  | and => "and"
  | or => "or"
  | not => "not"
  | timerOn => "timer_on"
  | timerOff => "timer_off"
  | timerPulse => "timer_pulse"
  | counterUp => "counter_up"
  | counterDown => "counter_down"
  | counterUpDown => "counter_updown"
  | add => "add"
  | subtract => "subtract"
  | multiply => "multiply"
  | divide => "divide"
  | greaterThan => "greater_than"
  | greaterEqual => "greater_equal"
  | equal => "equal"
  | notEqual => "not_equal"
  | lessEqual => "less_equal"
  | lessThan => "less_than"

def ofName? (word : String) : Option Kind := all.find? fun k => k.name = word

def primaryInput : Kind → String
  | contact | contactNegated | coil | coilNegated | not => "in"
  | timerOn | timerOff | timerPulse => "in"
  | counterUp | counterUpDown => "cu"
  | counterDown => "cd"
  | and | or | add | subtract | multiply | divide => "in1"
  | greaterThan | greaterEqual | equal | notEqual | lessEqual | lessThan => "in1"

def furtherInputs : Kind → List String
  | contact | contactNegated | coil | coilNegated | not => []
  | timerOn | timerOff | timerPulse => ["preset"]
  | counterUp => ["r", "pv"]
  | counterDown => ["ld", "pv"]
  | counterUpDown => ["cd", "r", "ld", "pv"]
  | and | or | add | subtract | multiply | divide => ["in2"]
  | greaterThan | greaterEqual | equal | notEqual | lessEqual | lessThan => ["in2"]

def primaryOutput : Kind → String
  | timerOn | timerOff | timerPulse | counterUp | counterDown => "q"
  | counterUpDown => "qu"
  | _ => "out"

def furtherOutputs : Kind → List String
  | timerOn | timerOff | timerPulse => ["et"]
  | counterUp | counterDown => ["cv"]
  | counterUpDown => ["qd", "cv"]
  | _ => []

def inputs (k : Kind) : List String := k.primaryInput :: k.furtherInputs

def outputs (k : Kind) : List String := k.primaryOutput :: k.furtherOutputs

/-- Contacts read a variable. -/
def isContact : Kind → Bool
  | contact | contactNegated => true
  | _ => false

/-- Coils write a variable. -/
def isCoil : Kind → Bool
  | coil | coilNegated => true
  | _ => false

/-- Gates join two rungs. -/
def isGate : Kind → Bool
  | and | or => true
  | _ => false

/-- Timers measure how long their input has been on or off. -/
def isTimer : Kind → Bool
  | timerOn | timerOff | timerPulse => true
  | _ => false

/-- Counters count the rising edges of their input. -/
def isCounter : Kind → Bool
  | counterUp | counterDown | counterUpDown => true
  | _ => false

/-- Timers and counters carry a state from one scan to the next. -/
def isStateful (k : Kind) : Bool := k.isTimer || k.isCounter

theorem ofName?_name (k : Kind) : ofName? k.name = some k := by
  cases k <;> decide

theorem name_of_ofName? {word : String} {k : Kind} (h : ofName? word = some k) : k.name = word := by
  simpa using List.find?_some h

theorem isContact_iff {k : Kind} : k.isContact = true ↔ k = contact ∨ k = contactNegated := by
  cases k <;> decide

theorem isCoil_iff {k : Kind} : k.isCoil = true ↔ k = coil ∨ k = coilNegated := by
  cases k <;> decide

theorem isGate_iff {k : Kind} : k.isGate = true ↔ k = and ∨ k = or := by
  cases k <;> decide

theorem primaryInput_ne_in2 (k : Kind) : k.primaryInput ≠ "in2" := by
  cases k <;> decide

theorem primaryInput_mem_inputs (k : Kind) : k.primaryInput ∈ k.inputs := List.mem_cons_self ..

theorem primaryOutput_mem_outputs (k : Kind) : k.primaryOutput ∈ k.outputs := List.mem_cons_self ..

end Kind

end RungLogic
