import RungLogic.Error
import RungLogic.Notice
import RungLogic.Number

/-!
The runner of continuous simulations scans again and again, never before its interval has passed,
and waits between two looks at the clock. It ends when it is told to stop, and when a scan fails.
What it runs in, its surroundings, is a parameter.
-/

set_option autoImplicit false
set_option relaxedAutoImplicit false

namespace RungLogic

/-- How a scan ends, and whether the runner has been told to stop in its course. -/
structure ScanEnd where
  failure : Option Error := none
  stops : Bool := false

/-- What a runner runs in: a clock, scans, and waits in whose course it may be told to stop. -/
structure RunnerSurroundings (σ : Type) where
  now : σ → Float × σ
  scan : σ → ScanEnd × σ
  wait : σ → Bool × σ

/-- A runner at work. -/
structure Runner (σ : Type) where
  world : σ
  stopped : Bool := false
  nextScan : Float
  cycles : Nat := 0
  notices : List Notice := []

namespace Runner

variable {σ : Type}

/-- Milliseconds as seconds; none when they are too many for a real. -/
def seconds? : Number → Option Float
  | .real x => some (x / 1000)
  | .int i =>
    let x := Float.ofScientific i.natAbs true 3
    if x.isInf then none else some (if i < 0 then -x else x)

/-- A runner before its first look at the clock; it may have been told to stop already. -/
def start (s : RunnerSurroundings σ) (world : σ) (stopped : Bool) : Runner σ :=
  let (now, world) := s.now world
  { world := world, stopped := stopped, nextScan := now }

/-- Waits, and takes notice of a stop. -/
def rest (s : RunnerSurroundings σ) (r : Runner σ) : Runner σ :=
  let (stops, world) := s.wait r.world
  { r with world := world, stopped := r.stopped || stops }

/-- Scans at a time. A failure stops the runner and is reported. -/
def scanAt (s : RunnerSurroundings σ) (interval now : Float) (r : Runner σ) : Bool × Runner σ :=
  let (ended, world) := s.scan r.world
  match ended.failure with
  | some fault =>
    (true, { r with world := world, stopped := true
                    notices := r.notices ++ [.runnerStopped fault.message] })
  | none =>
    (false, { r with world := world, stopped := r.stopped || ended.stops
                     nextScan := now + interval, cycles := r.cycles + 1 })

/-- One look at the clock, with a scan when it is due, and the wait after it; none when the runner
has stopped. -/
def turn (s : RunnerSurroundings σ) (interval : Float) (r : Runner σ) : Option (Runner σ) :=
  if r.stopped then none
  else
    let (now, world) := s.now r.world
    let r := { r with world := world }
    if now ≥ r.nextScan then
      match r.scanAt s interval now with
      | (true, r) => some r
      | (false, r) => some (r.rest s)
    else some (r.rest s)

def run (s : RunnerSurroundings σ) (interval : Float) : Nat → Runner σ → Runner σ
  | 0, r => r
  | n + 1, r => match r.turn s interval with
    | some r => run s interval n r
    | none => r

end Runner

end RungLogic
