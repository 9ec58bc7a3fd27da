import RungLogic.CommandLine.Arguments
import RungLogic.Network.Build
import RungLogic.Session
import RungLogic.Workspace

/-!
The command line: it converts programs and networks into each other, draws a network after one scan,
or simulates it at a prompt. Faults of programs, documents and files end it with a message and
status 1.
-/

set_option autoImplicit false
set_option relaxedAutoImplicit false

namespace RungLogic.CommandLine

/-- How the command line ends: the status or an error beside those that are reported, the files
after it, and what it has printed to the output, to the error output and to the log. -/
structure Ending where
  status : Except Error Nat
  workspace : Workspace
  printed : List Session.Printed := []
  complaints : List String := []
  notices : List Notice := []

/-- The two directions of conversion. -/
inductive Direction where
  | programToNetwork | networkToProgram
  deriving DecidableEq, Repr

def Direction.ofName? : String → Option Direction
  | "il2ld" => some .programToNetwork
  | "ld2il" => some .networkToProgram
  | _ => none

def usage : String :=
  "Usage: ladderplc [OPTIONS]\n\n" ++
  "  Convert between IEC 61131-3 IL and LD, and simulate LD networks.\n\n" ++
  "  Examples:\n" ++
  "    ladderplc -i program.il -o network.json -c il2ld\n" ++
  "    ladderplc -i network.json -o program.json -c ld2il\n" ++
  "    ladderplc -s network.json -v\n" ++
  "    ladderplc -s network.json -e network.dot\n\n" ++
  "Options:\n" ++
  "  -i, --input FILE             Input file (IL JSON/text or LD JSON)\n" ++
  "  -o, --output FILE            Output file\n" ++
  "  -c, --convert [il2ld|ld2il]  Conversion direction\n" ++
  "  -s, --simulate FILE          Simulate an LD network JSON file\n" ++
  "  -v, --visual                 Show element outputs while simulating\n" ++
  "  -e, --export FILE            Export the simulated network to DOT or GraphML\n" ++
  "  --config FILE                YAML configuration file\n" ++
  "  --verbose                    Verbose output\n" ++
  "  -h, --help                   Show this message and exit."

/-- Whether the files that have to be there are there, and no directory stands in the place of a
file. -/
def filesFit (w : Workspace) (a : Arguments) : Bool :=
  let fits (c : Choice) (needed : Bool) : Bool := match a.value? c with
    | none => true
    | some path =>
      let parts := Path.parts path
      let there := path ≠ "" && (w.wayFault? (Workspace.way parts)).isNone
      !(there && w.isDirectory parts) && (!needed || (there && w.isFile parts))
  fits .input true && fits .simulate true && fits .output false && fits .drawing false &&
    fits .config false

/-- Whether the arguments can be used: known directions only, fitting files and nothing beside
options. -/
def usable (w : Workspace) (a : Arguments) : Bool :=
  (a.value? .convert).all (fun name => (Direction.ofName? name).isSome) && filesFit w a &&
    a.extra.isEmpty

/-- The settings that the arguments ask for, or those that are found. -/
def settingsFor (w : Workspace) (a : Arguments) : Except Error (Settings × List Notice) :=
  match a.text? .config with
  | some path => w.loadSettings path
  | none => match w.findSettings "." with
    | some path => w.loadSettings path
    | none => .ok ({}, [])

/-- Why the level of logging cannot be set. Names without a meaning stand for the default, but two
stand for something else. With all details on, the name is not looked at. -/
def levelFault? (a : Arguments) (settings : Settings) : Option Error :=
  if a.has .verbose then none
  else match settings.logLevel with
    | "BASIC_FORMAT" => some (.value (.notALevel "%(levelname)s:%(name)s:%(message)s"))
    | "_STYLES" => some .shape
    | _ => none

theorem levelFault?_default (a : Arguments) : levelFault? a {} = none := by
  unfold levelFault?
  split <;> rfl

/-- The errors that are reported; the others go through. -/
def isReported : Error → Bool
  | .line .. | .invalid .. | .document .. | .cycle _ => true
  | .value .tooDeep => false
  | .value _ | .json .. | .file .. => true
  | .shape | .part | .tooLarge | .unknown _ | .scanFailed => false

def fail (w : Workspace) (verbose : Bool) (printed : List Session.Printed) (notices : List Notice)
    (e : Error) : Ending :=
  if isReported e then
    { status := .ok 1
      workspace := w
      printed := printed
      complaints := ["❌ Error: " ++ e.message]
      notices := notices ++ if verbose then [.commandFailed] else [] }
  else { status := .error e, workspace := w, printed := printed, notices := notices }

def succeed (w : Workspace) (line : String) (notices : List Notice) : Ending :=
  { status := .ok 0, workspace := w, printed := [.line line], notices := notices }

def convertProgram (w : Workspace) (input output : String) (notices : List Notice)
    (verbose : Bool) : Ending :=
  match w.loadProgram input with
  | .error e => fail w verbose [] notices e
  | .ok p =>
    let notices := notices ++ p.skipped
    match (p.build {}).1.bind (w.saveNetwork output) with
    | .error e => fail w verbose [] notices e
    | .ok w =>
      succeed w
        ("✅ Converted " ++ toString p.length ++ " IL instructions to LD network: " ++ output)
        notices

def convertNetwork (w : Workspace) (input output : String) (o : TraceOptions)
    (notices : List Notice) (verbose : Bool) : Ending :=
  match w.loadNetwork input with
  | .error e => fail w verbose [] notices e
  | .ok n =>
    let notices := notices ++ n.writtenNotices o
    match n.writtenTrace o with
    | .error e => fail w verbose [] notices e
    | .ok p => match w.saveProgram output p with
      | .error e => fail w verbose [] notices e
      | .ok w =>
        succeed w
          ("✅ Converted LD network to " ++ toString p.length ++ " IL instructions: " ++ output)
          notices

def convert (w : Workspace) (a : Arguments) (settings : Settings) (notices : List Notice)
    (direction : Direction) : Ending :=
  match a.text? .input, a.text? .output with
  | some input, some output => match direction with
    | .programToNetwork => convertProgram w input output notices (a.has .verbose)
    | .networkToProgram =>
      convertNetwork w input output settings.trace notices (a.has .verbose)
  | _, _ =>
    { status := .ok 1
      workspace := w
      complaints := ["❌ Error: conversion requires both --input and --output"]
      notices := notices }

def draw (w : Workspace) (s : Simulation) (path : String) (notices : List Notice) (verbose : Bool) :
    Ending :=
  let o := s.cycle
  let notices := notices ++ o.notices
  let n := s.scanner.network
  let activity := o.state.context.recorded.map fun p => (p.1, p.2.isOn)
  match o.result.bind fun _ => w.saveDrawing path n activity with
  | .error e => fail w verbose [] notices e
  | .ok (_, w) => succeed w ("✅ Exported network " ++ n.id ++ " to " ++ path) notices

/-- What the arguments lead to: an end, or a session at the prompt. -/
inductive Plan where
  | ended (e : Ending)
  | session (s : Session) (notices : List Notice)

def contextFor (settings : Settings) (clock : Clock) : Except Error Context :=
  (Settings.store settings.simulation).map fun store =>
    { store := store, clock := clock, memoize := settings.simulation.memoize }

def simulate (w : Workspace) (a : Arguments) (settings : Settings) (clock : Clock)
    (notices : List Notice) (file : String) : Plan :=
  let start : Except Error (Network × Context) := do
    let n ← w.loadNetwork file
    let context ← contextFor settings clock
    return (n, context)
  match start with
  | .error e => .ended (fail w (a.has .verbose) [] notices e)
  | .ok (n, context) => match a.text? .drawing with
    | some path =>
      .ended (draw w (Simulation.start context n) path notices (a.has .verbose))
    | none => .session (Session.start settings.simulation context n (a.has .visual)) notices

def follow (w : Workspace) (a : Arguments) (clock : Clock) : Plan :=
  match settingsFor w a with
  | .error e => .ended { status := .error e, workspace := w }
  | .ok (settings, notices) =>
    match levelFault? a settings with
    | some e => .ended { status := .error e, workspace := w, notices := notices }
    | none => match (a.text? .convert).bind Direction.ofName?, a.text? .simulate with
      | some direction, _ => .ended (convert w a settings notices direction)
      | none, some file => simulate w a settings clock notices file
      | none, none =>
        .ended { status := .ok 1, workspace := w, printed := [.line usage], notices := notices }

/-- What the option parser makes of the arguments: they are misused, they ask for help, or they are
options to follow. -/
inductive Parsing where
  | misused
  | help
  | options (a : Arguments)

/-- Looks at the arguments: for help first, then whether they can be used. -/
def Parsing.ofArguments (w : Workspace) (arguments : List String) : Parsing :=
  match Arguments.parse arguments with
  | none => .misused
  | some a => if a.has .help then .help else if usable w a then .options a else .misused

def Parsing.isVerbose : Parsing → Bool
  | .options a => a.has .verbose
  | .misused | .help => false

def planFor (w : Workspace) (parsing : Parsing) (clock : Clock) : Plan :=
  match parsing with
  | .misused => .ended { status := .ok 1, workspace := w, complaints := [usage] }
  | .help => .ended { status := .ok 0, workspace := w, printed := [.line usage] }
  | .options a => follow w a clock

def close (w : Workspace) (verbose : Bool) (notices : List Notice) (c : Session.Conversation) :
    Ending :=
  match c.failure with
  | some e => fail w verbose c.printed (notices ++ c.notices) e
  | none =>
    { status := .ok 0, workspace := w, printed := c.printed, notices := notices ++ c.notices }

/-- The command line behind an option parser. -/
def runFor (w : Workspace) (parsing : Parsing) (clock : Clock) (lines : List String) : Ending :=
  match planFor w parsing clock with
  | .ended e => e
  | .session s notices => close w parsing.isVerbose notices (s.interact lines)

def run (w : Workspace) (arguments : List String) (clock : Clock) (lines : List String) : Ending :=
  runFor w (.ofArguments w arguments) clock lines

end RungLogic.CommandLine
