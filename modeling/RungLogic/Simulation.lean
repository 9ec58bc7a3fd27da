import RungLogic.Clock
import RungLogic.Scan.Cycle

/-!
Simulations: a network with all that is carried from one scan to the next. The context (variables,
states, clock, recorded outputs) outlives the network; what the scanner holds ends with it. The
recorded outputs are those of the last scan that ended well, and grow with what is evaluated on
their scanner after it.
-/

set_option autoImplicit false
set_option relaxedAutoImplicit false

namespace RungLogic

/-- What outlives a change of the network. -/
structure Context where
  store : Store := Store.standard
  states : Table ElementState := []
  clock : Clock := {}
  memoize : Bool := false
  recorded : Table Signal := []

/-- What belongs to one network. -/
structure Scanner where
  network : Network
  now : Number := .int 0
  kept : Table Signal := []
  outputs : Table Signal := []
  /-- Whether the outputs of the scanner are the recorded ones. -/
  live : Bool := false

/-- A network under simulation. -/
structure Simulation where
  context : Context
  scanner : Scanner

/-- What an operation gives, what it leaves and what it reports. -/
structure Outcome (σ α : Type) where
  result : Except Error α
  state : σ
  notices : List Notice := []

namespace Simulation

def start (context : Context) (network : Network) : Simulation := ⟨context, { network := network }⟩

def surroundings (s : Simulation) : Scan.Surroundings :=
  { network := s.scanner.network, store := s.context.store, now := s.scanner.now
    memoize := s.context.memoize }

def absorb (s : Simulation) (m : Scan.Memory) : Simulation :=
  { context := { s.context with
      states := m.states
      recorded := if s.scanner.live then m.outputs else s.context.recorded }
    scanner := { s.scanner with kept := m.kept, outputs := m.outputs } }

/-- Runs one scan. The clock is read once, at its start. -/
def cycle (s : Simulation) : Outcome Simulation Unit :=
  match s.context.clock.read with
  | .error fault => { result := .error fault, state := s }
  | .ok (now, clock) =>
    let setting : Scan.Setting := ⟨s.scanner.network, now, s.context.memoize⟩
    let begun : Scan.Progress := ⟨s.context.store, { states := s.context.states }⟩
    let (fault, p) := Scan.scanElements setting s.scanner.network.elements begun
    let m := p.memory
    let recorded := if fault.isNone then m.outputs else s.context.recorded
    { result := match fault with
        | some fault => .error fault
        | none => .ok ()
      state :=
        { context := { s.context with store := p.store, states := m.states, clock := clock
                                      recorded := recorded }
          scanner := { s.scanner with now := now, kept := m.kept, outputs := m.outputs
                                      live := fault.isNone } }
      notices := m.notices }

/-- Evaluates one element between scans, with the time and the kept results of the last one. -/
def evaluate (s : Simulation) (id : String) : Outcome Simulation Signal :=
  match s.scanner.network.element? id with
  | none => { result := .error .part, state := s }
  | some e =>
    let (result, m) := Scan.evaluate s.surroundings e
      { states := s.context.states, kept := s.scanner.kept, outputs := s.scanner.outputs }
    { result := result, state := s.absorb m, notices := m.notices }

def reset (s : Simulation) : Simulation :=
  { context := { s.context with states := [], recorded := [] }
    scanner := { s.scanner with live := false } }

def load (s : Simulation) (network : Network) : Simulation := start s.context network

def write (s : Simulation) (name value : Value) : Except Error Simulation :=
  (s.context.store.write name value).map fun store =>
    { s with context := { s.context with store := store } }

end Simulation

end RungLogic
