import RungLogic.Number

/-!
Timers. An on-delay timer is on when its input has been on for the preset; an off-delay timer stays
on for the preset after its input has gone off. Each evaluation takes one reading of the clock; a
step gives nothing when the readings are too far apart to subtract.
-/

set_option autoImplicit false
set_option relaxedAutoImplicit false

namespace RungLogic

/-- What a timer remembers. -/
structure Timer where
  running : Bool := false
  start : Number := .int 0
  elapsed : Number := .int 0
  wasOn : Bool := false

namespace Timer

def onDelayNext (enabled : Bool) (now : Number) (t : Timer) : Option Timer :=
  if enabled && !t.running then some { running := true, start := now }
  else if enabled then
    (now.sub? t.start).map fun elapsed => { running := true, start := t.start, elapsed := elapsed }
  else some {}

def onDelay (enabled : Bool) (preset : Nat) (now : Number) (t : Timer) : Option (Timer × Bool) :=
  (onDelayNext enabled now t).map fun next => (next, next.elapsed.ge (.int preset))

/-- The off-delay timer after an evaluation: its time begins when the input goes off. -/
def offDelayNext (enabled : Bool) (preset : Nat) (now : Number) (t : Timer) : Option Timer :=
  if !enabled && t.wasOn then some { running := true, start := now }
  else if t.running then
    (now.sub? t.start).map fun elapsed =>
      if elapsed.ge (.int preset) then { elapsed := .int preset, wasOn := enabled }
      else { running := true, start := t.start, elapsed := elapsed, wasOn := enabled }
  else some { wasOn := enabled }

def offDelay (enabled : Bool) (preset : Nat) (now : Number) (t : Timer) : Option (Timer × Bool) :=
  (offDelayNext enabled preset now t).map fun next => (next, enabled || next.running)

end Timer

end RungLogic
