import RungLogic.Instruction
import RungLogic.Network
import RungLogic.Notice

/-!
Programs traced from networks. From every entry, an element that nothing feeds, the walk goes
breadth first along the primary outputs; each element is met once, and gives one instruction if its
kind has an operator. A contact that only serves as the second side of gates is folded into their
instructions. A trace fails at the first instruction whose quantity has too many digits to be
written.
-/

set_option autoImplicit false
set_option relaxedAutoImplicit false

namespace RungLogic

/-- How a network is traced. -/
structure TraceOptions where
  /-- Whether the walk goes on behind elements that have no instruction. -/
  pastUnknown : Bool := false
  deriving DecidableEq, Repr

/-- The operator of an element of a kind; a gate has another operator when its contact is negated.
-/
def Kind.operator? (k : Kind) (negated : Bool) : Option Operator :=
  match k with
  | .contact => some .ld
  | .contactNegated => some .ldn
  | .coil => some .st
  | .coilNegated => some .stn
  | .and => some (if negated then .andn else .and)
  | .or => some (if negated then .orn else .or)
  | .not => some .not
  | .timerOn => some .ton
  | .timerOff => some .tof
  | .counterUp => some .ctu
  | .counterDown => some .ctd
  | .add => some .add
  | .subtract => some .sub
  | .multiply => some .mul
  | .divide => some .div
  | .greaterThan => some .gt
  | .greaterEqual => some .ge
  | .equal => some .eq
  | .notEqual => some .ne
  | .lessEqual => some .le
  | .lessThan => some .lt
  | .timerPulse | .counterUpDown => none

/-- The text of a property, none when it is missing. -/
def quantityText : Value → Option String
  | .null => none
  | v => some v.plain

/-- The property that the instruction of an element is to hold in writing; null when it holds none. -/
def Element.quantity (e : Element) : Value :=
  match e.kind with
  | .timerOn | .timerOff | .counterUp | .counterDown => e.preset
  | .add | .subtract | .multiply | .divide => e.operand
  | .greaterThan | .greaterEqual | .equal | .notEqual | .lessEqual | .lessThan => e.operand
  | .contact | .contactNegated | .coil | .coilNegated | .and | .or | .not | .timerPulse
  | .counterUpDown => .null

namespace Network

def secondSide? (n : Network) (e : Element) : Option Element :=
  (n.incoming e.id (some "in2")).head?.bind fun c => n.element? c.source.element

def operandOf (n : Network) (e : Element) : Option String :=
  match e.kind with
  | .contact | .contactNegated | .coil | .coilNegated => e.reference?
  | .and | .or => (n.secondSide? e).bind Element.reference?
  | .not => none
  | .timerOn | .timerOff | .timerPulse | .counterUp | .counterDown | .counterUpDown =>
    quantityText e.preset
  | .add | .subtract | .multiply | .divide => quantityText e.operand
  | .greaterThan | .greaterEqual | .equal | .notEqual | .lessEqual | .lessThan =>
    quantityText e.operand

def instruction? (n : Network) (e : Element) : Option Instruction :=
  let negated := (n.secondSide? e).any fun s => s.kind = .contactNegated
  (e.kind.operator? negated).map fun o => ⟨o, n.operandOf e, none⟩

theorem isSome_instruction? (n : Network) (e : Element) :
    (n.instruction? e).isSome = true ↔ e.kind ≠ .timerPulse ∧ e.kind ≠ .counterUpDown := by
  unfold instruction? Kind.operator?
  cases e.kind <;> simp

def feeds (n : Network) (c : Connection) : Bool :=
  (n.element? c.target.element).any fun e => c.target.port = e.kind.primaryInput

def isFed (n : Network) (id : String) : Bool :=
  n.connections.any fun c => c.target.element = id && n.feeds c

def endsAtGate (n : Network) (c : Connection) : Bool :=
  c.target.port = "in2" && (n.element? c.target.element).any fun e => e.kind.isGate

/-- Whether an element is a contact that serves gates as their second side, and nothing else. -/
def isOperandContact (n : Network) (e : Element) : Bool :=
  let wires := n.outgoing e.id none
  e.kind.isContact && (n.incoming e.id none).isEmpty && !wires.isEmpty && wires.all n.endsAtGate

def entries (n : Network) : List Element :=
  n.elements.filter fun e => !n.isFed e.id && !n.isOperandContact e

def isExpanded (n : Network) (o : TraceOptions) (e : Element) : Bool :=
  (n.instruction? e).isSome || o.pastUnknown

def successors (n : Network) (o : TraceOptions) (e : Element) : List Element :=
  if n.isExpanded o e then
    (n.outgoing e.id (some e.kind.primaryOutput)).filterMap fun c => n.element? c.target.element
  else []

def isMet (met : List Element) (id : String) : Bool := met.any fun e => e.id = id

def unmet (n : Network) (met : List Element) : List Element :=
  n.elements.filter fun e => !isMet met e.id

/-- An element that is met now was not met before, so fewer remain. -/
private theorem length_unmet_lt {n : Network} {met : List Element} {id : String} {e : Element}
    (found : n.element? id = some e) (new : isMet met e.id = false) :
    (n.unmet (met ++ [e])).length < (n.unmet met).length := by
  have hmem : e ∈ n.elements := List.mem_of_find?_eq_some found
  have hsub : n.unmet (met ++ [e]) = (n.unmet met).filter fun d => !decide (e.id = d.id) := by
    simp only [unmet, List.filter_filter]
    refine List.filter_congr fun d _ => ?_
    simp [isMet, List.any_append, Bool.and_comm]
  rw [hsub]
  refine List.length_filter_lt_length_iff_exists.mpr ⟨e, ?_, by simp⟩
  simp [unmet, hmem, new]

/-- Walks from the ids in the queue; `met` lists the elements met so far in order. -/
def walk (n : Network) (o : TraceOptions) (met : List Element) (queue : List String) :
    List Element :=
  match queue with
  | [] => met
  | id :: rest =>
    match found : n.element? id with
    | none => walk n o met rest
    | some e =>
      if new : isMet met e.id = true then walk n o met rest
      else
        have := length_unmet_lt found (Bool.eq_false_iff.mpr new)
        walk n o (met ++ [e]) (rest ++ (n.successors o e).map Element.id)
  termination_by ((n.unmet met).length, queue.length)

def order (n : Network) (o : TraceOptions) : List Element :=
  n.entries.foldl (fun met e => n.walk o met [e.id]) []

/-- The instructions of a trace, however long their quantities are. -/
def trace (n : Network) (o : TraceOptions) : Program := (n.order o).filterMap n.instruction?

/-- The instruction of an element in writing. -/
def writtenInstruction? (n : Network) (e : Element) : Except Error (Option Instruction) :=
  if e.quantity.isLong then .error (.value .unwritable) else .ok (n.instruction? e)

/-- The trace in writing: the instructions of the elements that the walk meets, one after the other.
-/
def writtenTrace (n : Network) (o : TraceOptions) : Except Error Program :=
  ((n.order o).mapM n.writtenInstruction?).map fun given => given.filterMap fun i => i

def notice? (n : Network) (e : Element) : Option Notice :=
  match n.instruction? e with
  | some _ => none
  | none => some (.untraceable e.title)

def untraced (n : Network) (o : TraceOptions) : List Notice := (n.order o).filterMap n.notice?

/-- The notices of the trace in writing, which end where it fails. -/
def writtenNotices (n : Network) (o : TraceOptions) : List Notice :=
  ((n.order o).takeWhile fun e => !e.quantity.isLong).filterMap n.notice?

end Network

end RungLogic
