/-!
Counters. A counter counts the rising edges of its pulse, up to the preset or down to zero; an
evaluation that resets or loads it counts no edge.
-/

set_option autoImplicit false
set_option relaxedAutoImplicit false

namespace RungLogic

/-- What a counter remembers: the count, and whether the pulse was on. -/
structure Counter where
  count : Int := 0
  wasOn : Bool := false
  deriving DecidableEq, Repr

namespace Counter

/-- The counter after an evaluation that moves it with each rising edge, or sets it. -/
def next (pulse : Bool) (setTo : Option Int) (move : Int → Int) (c : Counter) : Counter :=
  match setTo with
  | some count => ⟨count, pulse⟩
  | none => if pulse && !c.wasOn then ⟨move c.count, true⟩ else ⟨c.count, pulse⟩

def up (pulse reset : Bool) (preset : Int) (c : Counter) : Counter × Bool :=
  let c := c.next pulse (if reset then some 0 else none) fun n => min (n + 1) preset
  (c, c.count ≥ preset)

def down (pulse load : Bool) (preset : Int) (c : Counter) : Counter × Bool :=
  let c := c.next pulse (if load then some preset else none) fun n => max (n - 1) 0
  (c, c.count = 0)

end Counter

end RungLogic
