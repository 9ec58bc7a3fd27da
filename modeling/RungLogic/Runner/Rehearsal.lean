import RungLogic.Runner

/-!
Rehearsals: a runner in scripted surroundings. The clock moves only with scans and waits, a given
scan fails or stops the runner, and so many waits end the rehearsal.
-/

set_option autoImplicit false
set_option relaxedAutoImplicit false

namespace RungLogic

/-- What is to happen, with times in seconds; scans are counted from one. -/
structure Script where
  scanTakes : Float
  waitTakes : Float
  maxWaits : Nat
  failAt : Option Nat := none
  stopAt : Option Nat := none

/-- What has happened: the time, when scans began, and how often the runner has waited. -/
structure Rehearsal where
  now : Float := 0.0
  scans : List Float := []
  waits : Nat := 0

namespace Script

/-- A scan takes its time, then fails or stops the runner if the script says so. -/
def scan (s : Script) (r : Rehearsal) : ScanEnd × Rehearsal :=
  let number := r.scans.length + 1
  let next := { r with scans := r.scans ++ [r.now], now := r.now + s.scanTakes }
  if s.failAt = some number then ({ failure := some .scanFailed }, next)
  else ({ stops := s.stopAt = some number }, next)

/-- A wait takes its time, and the last one stops the runner. -/
def wait (s : Script) (r : Rehearsal) : Bool × Rehearsal :=
  (decide (s.maxWaits ≤ r.waits + 1), { r with waits := r.waits + 1, now := r.now + s.waitTakes })

def surroundings (s : Script) : RunnerSurroundings Rehearsal where
  now r := (r.now, r)
  scan := s.scan
  wait := s.wait

/-- Plays the script; every turn but the last waits, so its waits bound its turns. -/
def play (s : Script) (interval : Float) (stopFirst : Bool) : Runner Rehearsal :=
  (Runner.start s.surroundings {} stopFirst).run s.surroundings interval (s.maxWaits + 1)

end Script

end RungLogic
