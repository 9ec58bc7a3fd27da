import RungLogic.CommandLine

/-!
The program: it reads the files that the arguments name into a workspace, lets the command line work
on it, prints what there is to print and writes back the files that have changed. Sessions read the
terminal line by line, while a task in the background scans as often as the settings say.
-/

set_option autoImplicit false
set_option relaxedAutoImplicit false

namespace RungLogic.Main

def pathsOf (arguments : List String) : List String :=
  Settings.fileName :: match CommandLine.Arguments.parse arguments with
    | some a => (a.given.filter fun g => g.1.takesValue).map Prod.snd
    | none => []

def clock : IO Clock := do
  let now ← IO.monoMsNow
  return { now := .int now }

/-- Adds what stands at a path: a file with its text, or a directory. -/
def addSpot (w : Workspace) (parts : List String) : IO Workspace := do
  let path := "/".intercalate parts
  if path = "" then return w
  try
    let bytes ← IO.FS.readBinFile path
    match String.fromUTF8? bytes with
    | some text => return { w with files := w.files.put path text }
    | none => return { w with files := w.files.put path "", garbled := w.garbled.put path "no text" }
  catch fault => match fault with
    | .inappropriateType .. => return { w with directories := path :: w.directories }
    | _ => return w

def addPath (w : Workspace) (path : String) : IO Workspace :=
  let parts := Path.parts path
  (Workspace.way parts ++ [parts]).foldlM addSpot w

def writeChanges (before after : Workspace) : IO Unit :=
  after.files.forM fun f =>
    if before.files.value? f.1 = some f.2 then pure () else IO.FS.writeFile f.1 f.2

def finish (w : Workspace) (e : CommandLine.Ending) : IO UInt32 := do
  writeChanges w e.workspace
  e.printed.forM fun p => match p with
    | .prompt => IO.print "> "
    | .line l => IO.println l
  e.notices.forM fun n => IO.eprintln n.line
  e.complaints.forM fun l => IO.eprintln l
  match e.status with
  | .ok status => return status.toUInt32
  | .error fault =>
    IO.eprintln fault.message
    return 1

def withClock (c : Clock) (s : Session) : Session :=
  { s with simulation :=
    { s.simulation with context := { s.simulation.context with clock := c } } }

/-- Carries out a step on the session that prompt and background share, and prints what it tells. -/
def act (shared : IO.Ref Session) (step : Session → Reply) : IO (Except Error Unit) := do
  let c ← clock
  let reply ← shared.modifyGet fun s => let r := step (withClock c s); (r, r.session)
  reply.notices.forM fun n => IO.eprintln n.line
  reply.lines.forM fun l => IO.println l
  return reply.result

def pause (n : Number) : UInt32 :=
  match n.form.truncate? with
  | some i => i.toNat.toUInt32
  | none => 0

/-- Scans in the background whenever the session asks for it, until the task is cancelled. -/
partial def background (shared : IO.Ref Session) (due : Nat) : IO Unit := do
  if ← IO.checkCanceled then return
  let s ← shared.get
  let now ← IO.monoMsNow
  if s.isContinuous && due ≤ now then
    let _ ← act shared Session.turn
    IO.sleep (pause s.settings.pollInterval)
    background shared (now + (pause s.settings.scanInterval).toNat)
  else
    IO.sleep (pause s.settings.pollInterval + 1)
    background shared due

/-- Asks for lines and carries them out. -/
partial def converse (shared : IO.Ref Session) : IO (Option Error) := do
  IO.print "> "
  (← IO.getStdout).flush
  let line ← (← IO.getStdin).getLine
  if line.isEmpty then return none
  let command := Command.ofLine line
  match ← act shared fun s => s.execute command with
  | .error fault => return some fault
  | .ok () => if command = .exit then return none else converse shared

def simulate (w : Workspace) (s : Session) (verbose : Bool) (notices : List Notice) :
    IO UInt32 := do
  s.greeting.forM fun l => IO.println l
  let shared ← IO.mkRef s
  let scans ← IO.asTask (background shared 0)
  let failure ← converse shared
  IO.cancel scans
  let _ ← act shared Session.stopContinuous
  match failure with
  | some fault => finish w (CommandLine.fail w verbose [] notices fault)
  | none => finish w { status := .ok 0, workspace := w, notices := notices }

end RungLogic.Main

def main (arguments : List String) : IO UInt32 := do
  let w ← (RungLogic.Main.pathsOf arguments).foldlM RungLogic.Main.addPath {}
  let parsing := RungLogic.CommandLine.Parsing.ofArguments w arguments
  match RungLogic.CommandLine.planFor w parsing (← RungLogic.Main.clock) with
  | .ended e => RungLogic.Main.finish w e
  | .session s notices => RungLogic.Main.simulate w s parsing.isVerbose notices
