import RungLogic.Scan.Block

/-!
The scan machine evaluates an element after everything that is wired into it. It goes depth first
with a stack of frames, one for each element whose inputs are still being read, so that a rung of
any length needs no deep recursion. An element that is reached while its own frame is open closes a
cycle.
-/

set_option autoImplicit false
set_option relaxedAutoImplicit false

namespace RungLogic.Scan

/-- An element whose inputs are being read: the ports still to read, each with the port at the other
end of its first wire, and the signals that have been read. -/
structure Frame where
  element : Element
  pending : List (String × PortEnd)
  inputs : Table Signal := []

/-- A frame that waits for the element above it: the signal comes from that output and goes to that
port. -/
structure Waiting where
  frame : Frame
  port : String
  output : String

/-- The frame at work, the frames below it, and what has been left so far. -/
structure Machine where
  top : Frame
  below : List Waiting
  memory : Memory

/-- The far end of the first wire that ends at a port of an element. -/
def feed? (n : Network) (id port : String) : Option PortEnd :=
  (n.connections.find? fun c => c.target.element = id && c.target.port = port).map Connection.source

/-- The frame of an element whose inputs are all still to read. -/
def Frame.fresh (n : Network) (e : Element) : Frame :=
  ⟨e, (readPorts e.kind).filterMap fun port => (feed? n e.id port).map fun r => (port, r), []⟩

namespace Machine

def frames (m : Machine) : List Frame := m.top :: m.below.map Waiting.frame

def path (m : Machine) : List String := (m.frames.map fun f => f.element.id).reverse

/-- The part of the path that leads from an id back to it. -/
def loopAt (m : Machine) (id : String) : List String := m.path.dropWhile (· ≠ id) ++ [id]

def deliver (f : Frame) (port : String) (s : Signal) : Frame :=
  { f with inputs := f.inputs.put port s }

/-- What one step leads to. -/
inductive Progress where
  | more (m : Machine)
  | done (result : Except Error Signal) (memory : Memory)

/-- Reads the next port of the top frame: from what is kept, or by opening a frame for its source.
-/
def read (w : Surroundings) (m : Machine) (port : String) (r : PortEnd)
    (rest : List (String × PortEnd)) : Progress :=
  match w.network.element? r.element with
  | none => .done (.error (.unknown r.element)) m.memory
  | some source =>
    if m.path.contains source.id then .done (.error (.cycle (m.loopAt source.id))) m.memory
    else match m.memory.keptSignal? w source with
      | some kept => match portSignal m.memory.states source r.port kept with
        | .ok s => .more { m with top := deliver { m.top with pending := rest } port s }
        | .error e => .done (.error e) m.memory
      | none =>
        .more
          { top := Frame.fresh w.network source
            below := ⟨{ m.top with pending := rest }, port, r.port⟩ :: m.below
            memory := m.memory }

/-- Applies the element of the top frame and hands its signal to the frame below. -/
def close (w : Surroundings) (m : Machine) : Progress :=
  match apply w m.top.element m.top.inputs m.memory with
  | (.error e, memory) => .done (.error e) memory
  | (.ok s, memory) => match m.below with
    | [] => .done (.ok s) memory
    | below :: rest => match portSignal memory.states m.top.element below.output s with
      | .ok s => .more ⟨deliver below.frame below.port s, rest, memory⟩
      | .error e => .done (.error e) memory

def step (w : Surroundings) (m : Machine) : Progress :=
  match m.top.pending with
  | (port, r) :: rest => m.read w port r rest
  | [] => m.close w

def room (n : Network) (frames : List Frame) : Nat :=
  (n.elements.filter fun e => !(frames.map fun f => f.element.id).contains e.id).length

/-- A bound on the steps that frames still take: each port may open a frame with two ports of its
own, as long as there are elements that are not open. -/
def cost (n : Network) : List Frame → Nat
  | [] => 0
  | f :: below => f.pending.length * Nat.pow 4 (room n (f :: below)) + 1 + cost n below

theorem cost_deliver (n : Network) (f : Frame) (port : String) (s : Signal) (below : List Frame) :
    cost n (deliver f port s :: below) = cost n (f :: below) := rfl

private theorem room_fresh_lt {n : Network} {id : String} {e : Element} {frames : List Frame}
    (found : n.element? id = some e)
    (new : (frames.map fun f => f.element.id).contains e.id = false)
    (f : Frame) (same : f.element.id = e.id) : room n (f :: frames) < room n frames := by
  have hmem : e ∈ n.elements := List.mem_of_find?_eq_some found
  have hsub : (n.elements.filter fun d =>
        !((f :: frames).map fun f => f.element.id).contains d.id) =
      (n.elements.filter fun d => !(frames.map fun f => f.element.id).contains d.id).filter
        fun d => !decide (d.id = e.id) := by
    rw [List.filter_filter]
    refine List.filter_congr fun d _ => ?_
    simp [same]
  unfold room
  rw [hsub]
  refine List.length_filter_lt_length_iff_exists.mpr ⟨e, ?_, by simp⟩
  simp only [List.mem_filter, hmem, true_and, new, Bool.not_false]

private theorem length_pending_fresh (n : Network) (e : Element) : (Frame.fresh n e).pending.length ≤ 2 :=
  Nat.le_trans (List.length_filterMap_le _ _) (length_readPorts_le e.kind)

private theorem fresh_cost_lt {ports small large : Nat} (hp : ports ≤ 2) (h : small < large) :
    ports * Nat.pow 4 small + 1 < Nat.pow 4 large := by
  have h1 : Nat.pow 4 (small + 1) ≤ Nat.pow 4 large := Nat.pow_le_pow_right (by omega) h
  have h2 : 0 < Nat.pow 4 small := Nat.pow_pos (by omega)
  have h3 : ports * Nat.pow 4 small ≤ 2 * Nat.pow 4 small := Nat.mul_le_mul_right _ hp
  change Nat.pow 4 small * 4 ≤ Nat.pow 4 large at h1
  omega

private theorem read_cost {w : Surroundings} {m next : Machine} {port : String} {r : PortEnd}
    {rest : List (String × PortEnd)} (hp : m.top.pending = (port, r) :: rest)
    (h : m.read w port r rest = .more next) :
    cost w.network next.frames < cost w.network m.frames := by
  have hpos : 0 < Nat.pow 4 (room w.network m.frames) := Nat.pow_pos (by omega)
  have hold : cost w.network m.frames =
      (rest.length + 1) * Nat.pow 4 (room w.network m.frames) + 1 +
        cost w.network (m.below.map Waiting.frame) := by
    simp [frames, cost, hp]
  rw [hold, Nat.add_mul]
  unfold read at h
  split at h
  · cases h
  · rename_i source found
    split at h
    · cases h
    · rename_i new
      split at h
      · split at h
        · rename_i s _
          cases h
          have hframes : cost w.network ({ m with
              top := deliver { m.top with pending := rest } port s } : Machine).frames =
              rest.length * Nat.pow 4 (room w.network m.frames) + 1 +
                cost w.network (m.below.map Waiting.frame) := rfl
          rw [hframes]
          omega
        · cases h
      · cases h
        have hnew : (m.frames.map fun f => f.element.id).contains source.id = false := by
          simpa [path] using new
        have hroom := room_fresh_lt found hnew (Frame.fresh w.network source) rfl
        have hcost := fresh_cost_lt (length_pending_fresh w.network source) hroom
        have hframes : cost w.network
            (⟨Frame.fresh w.network source,
              ⟨{ m.top with pending := rest }, port, r.port⟩ :: m.below, m.memory⟩ : Machine).frames =
            (Frame.fresh w.network source).pending.length *
                Nat.pow 4 (room w.network (Frame.fresh w.network source :: m.frames)) + 1 +
              (rest.length * Nat.pow 4 (room w.network m.frames) + 1 +
                cost w.network (m.below.map Waiting.frame)) := rfl
        rw [hframes]
        omega

private theorem close_cost {w : Surroundings} {m next : Machine} (h : m.close w = .more next) :
    cost w.network next.frames < cost w.network m.frames := by
  unfold close at h
  split at h
  · cases h
  · split at h
    · cases h
    · rename_i below rest hb
      split at h
      · cases h
        simp only [frames, cost_deliver]
        simp only [hb, List.map_cons, cost]
        omega
      · cases h

/-- Each step leaves fewer steps to take. -/
theorem step_cost {w : Surroundings} {m next : Machine} (h : m.step w = .more next) :
    cost w.network next.frames < cost w.network m.frames := by
  unfold step at h
  split at h
  · exact read_cost (by assumption) h
  · exact close_cost h

def run (w : Surroundings) (m : Machine) : Except Error Signal × Memory :=
  match h : m.step w with
  | .done result memory => (result, memory)
  | .more next =>
    have := step_cost h
    run w next
  termination_by cost w.network m.frames

end Machine

def evaluate (w : Surroundings) (e : Element) (m : Memory) : Except Error Signal × Memory :=
  match m.keptSignal? w e with
  | some kept => (.ok kept, m)
  | none => Machine.run w ⟨Frame.fresh w.network e, [], m⟩

end RungLogic.Scan
