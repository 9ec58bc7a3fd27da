import RungLogic.Runner
import RungLogic.Session.Entry
import RungLogic.Settings
import RungLogic.Simulation

/-!
Sessions: a network simulated at a prompt. Each command is one line; it may run a scan, write a
variable, switch the display of outputs or the continuous scanning, or end the session. All that a
command tells is a list of lines.
-/

set_option autoImplicit false
set_option relaxedAutoImplicit false

namespace RungLogic

/-- What scans in the background. A scan that fails ends it, but it is still to be put away. -/
inductive Background where
  | none | scanning | ended
  deriving DecidableEq, Repr

/-- A session. -/
structure Session where
  settings : SimulationSettings := {}
  simulation : Simulation
  visual : Bool := false
  background : Background := .none

/-- What can be asked for at the prompt. -/
inductive Command where
  | scan
  | exit
  | continuous
  | visual
  | set (arguments : List String)
  | help
  | unknown (word : String)
  deriving DecidableEq, Repr

/-- The command of a line; the first word decides, in any case of its letters. -/
def Command.ofLine (line : String) : Command :=
  match Text.words line with
  | [] => .scan
  | word :: rest => match Text.lowerASCII word with
    | "exit" => .exit
    | "continuous" => .continuous
    | "visual" => .visual
    | "set" => .set rest
    | "help" => .help
    | _ => .unknown word

/-- What a command gives, the session after it, and what it tells. -/
structure Reply where
  result : Except Error Unit := .ok ()
  session : Session
  lines : List String := []
  notices : List Notice := []

namespace Session

def helpText : String :=
  "Commands:\n" ++
  "  <Enter>            run one scan cycle\n" ++
  "  set VAR VALUE      set a variable (VALUE defaults to false)\n" ++
  "  visual             toggle element output display\n" ++
  "  continuous         toggle continuous scanning\n" ++
  "  exit               leave the simulator"

/-- Goes on with another network; states and outputs are forgotten. -/
def load (s : Session) (network : Network) : Session :=
  { s with simulation := (s.simulation.load network).reset }

def start (settings : SimulationSettings) (context : Context) (network : Network) (visual : Bool) :
    Session :=
  { settings := settings, simulation := (Simulation.start context network).reset, visual := visual }

/-- The context of a session that is given none: the standard variables and the given clock. -/
def plainContext (settings : SimulationSettings) (clock : Clock) : Context :=
  { clock := clock, memoize := settings.memoize }

def store (s : Session) : Store := s.simulation.context.store

def variablesLine (s : Session) : Except Error String := do
  let entries ← s.store.mapM fun (name, c) => do return name ++ "=" ++ (← c.value.told)
  return "Variables: " ++ ", ".intercalate entries

def padded (width : Nat) (s : String) : String :=
  s ++ String.ofList (List.replicate (width - s.length) ' ')

def outputText : Option Signal → Except Error String
  | none => .ok "-"
  | some (.truth b) => .ok (if b then "ON" else "OFF")
  | some s => s.value.told

def elementLine (s : Session) (e : Element) : Except Error String := do
  let output ← outputText (s.simulation.context.recorded.value? e.id)
  let label ← e.toldLabel
  return "  " ++ padded 28 label ++ " " ++ output

def elementLines (s : Session) : List (Except Error String) :=
  s.simulation.scanner.network.elements.map s.elementLine

/-- The lines up to the first that cannot be told, and the error of that one. -/
def tellable : List (Except Error String) → List String × Except Error Unit
  | [] => ([], .ok ())
  | .ok line :: rest => let (lines, result) := tellable rest; (line :: lines, result)
  | .error fault :: _ => ([], .error fault)

/-- Tells lines one after the other; it fails at the first that cannot be told. -/
def recite (s : Session) (lines : List (Except Error String)) (notices : List Notice := []) :
    Reply :=
  let (told, result) := tellable lines
  { result := result, session := s, lines := told, notices := notices }

def scan (s : Session) : Reply :=
  let o := s.simulation.cycle
  let next := { s with simulation := o.state }
  match o.result with
  | .error fault => { result := .error fault, session := next, notices := o.notices }
  | .ok () =>
    next.recite (next.variablesLine :: if next.visual then next.elementLines else []) o.notices

def isContinuous (s : Session) : Bool := s.background = .scanning

/-- Starts scanning in the background, unless it goes on already. -/
def startContinuous (s : Session) : Reply :=
  if s.isContinuous then { session := s }
  else match Runner.seconds? s.settings.scanInterval, Runner.seconds? s.settings.pollInterval with
    | some _, some _ =>
      { session := { s with background := .scanning }
        lines := ["▶️  Continuous simulation started"] }
    | _, _ => { result := .error .tooLarge, session := s }

def stopContinuous (s : Session) : Reply :=
  if s.background = .none then { session := s }
  else { session := { s with background := .none }, lines := ["⏹️  Continuous simulation stopped"] }

def toggleVisual (s : Session) : Reply :=
  let next := { s with visual := !s.visual }
  next.recite (.ok ("Visualization " ++ if next.visual then "on" else "off") ::
    if next.visual then next.elementLines else [])

def tell (s : Session) (line : String) : Reply := { session := s, lines := [line] }

def refuse (s : Session) (name reason : String) : Reply :=
  s.tell ("❌ Invalid value for " ++ name ++ ": " ++ reason)

/-- Writes a value and tells it; it is written also when it cannot be told. -/
def assign (s : Session) (name : String) (v : Value) : Reply :=
  match s.simulation.write (.text name) v with
  | .error fault => s.refuse name fault.message
  | .ok simulation =>
    recite { s with simulation := simulation } [v.told.map fun text => name ++ " = " ++ text]

/-- Sets a variable to what the words after its name spell; no words spell false. -/
def setVariable (s : Session) (name : String) (words : List String) : Reply :=
  let type := (s.store.value? name).map Content.type
  match words with
  | [] => match type with
    | none | some .bool => s.assign name (.bool false)
    | some t => s.tell ("❌ A value is required for " ++ t.name ++ " variable " ++ name)
  | _ => match readValue type (" ".intercalate words) with
    | .error fault => s.refuse name fault.message
    | .ok v => s.assign name v

def execute (s : Session) : Command → Reply
  | .scan => s.scan
  | .exit => s.stopContinuous
  | .continuous => if s.isContinuous then s.stopContinuous else s.startContinuous
  | .visual => s.toggleVisual
  | .set [] => s.tell "❌ Usage: set VAR VALUE"
  | .set (name :: words) => s.setVariable name words
  | .help => s.tell helpText
  | .unknown word => s.tell ("❌ Unknown command: " ++ word)

/-- What a running background does once: a scan, and nothing when there is none. -/
def tick (s : Session) : Reply := if s.isContinuous then s.scan else { session := s }

/-- One turn of what scans in the background. A scan that fails ends it, with a notice of why. -/
def turn (s : Session) : Reply :=
  let r := s.tick
  match r.result with
  | .ok () => r
  | .error fault =>
    { session := { r.session with background := .ended }
      lines := r.lines
      notices := r.notices ++ [.runnerStopped fault.message] }

/-- Part of what appears at a terminal: the prompt, or a line. -/
inductive Printed where
  | prompt
  | line (text : String)
  deriving DecidableEq, Repr

/-- The conversation of a session: why it ended early, the session at its end, and what was printed.
-/
structure Conversation where
  failure : Option Error := none
  session : Session
  printed : List Printed
  notices : List Notice := []

def Conversation.after (lines : List String) (notices : List Notice) (c : Conversation) :
    Conversation :=
  { c with
    printed := .prompt :: lines.map .line ++ c.printed
    notices := notices ++ c.notices }

/-- The end of a conversation puts away what scans in the background. -/
def hangUp (s : Session) (failure : Option Error) : Conversation :=
  let r := s.stopContinuous
  { failure := failure, session := r.session, printed := r.lines.map .line }

/-- Asks for lines until one is the command to exit, or fails, or there are no more. -/
def converse (s : Session) : List String → Conversation
  | [] => (s.hangUp none).after [] []
  | line :: rest =>
    let command := Command.ofLine line
    let r := s.execute command
    match r.result with
    | .error fault => (r.session.hangUp (some fault)).after r.lines r.notices
    | .ok () =>
      if command = .exit then (r.session.hangUp none).after r.lines r.notices
      else (r.session.converse rest).after r.lines r.notices

def greeting (s : Session) : List String :=
  ["LD simulation of network " ++ s.simulation.scanner.network.id, helpText]

def interact (s : Session) (lines : List String) : Conversation :=
  let c := s.converse lines
  { c with printed := s.greeting.map .line ++ c.printed }

end Session

end RungLogic
