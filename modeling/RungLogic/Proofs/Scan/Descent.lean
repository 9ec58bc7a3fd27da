import RungLogic.Proofs.Scan.ReadLinks

/-!
Descent: the scan machine written as a recursion. To read a port is to evaluate the source of its
wire under the ids that are open, and to evaluate an element is to read its ports and apply it. The
stack of the machine holds what this recursion has suspended, so both leave the same.
-/

set_option autoImplicit false
set_option relaxedAutoImplicit false

namespace RungLogic.Scan

/-- The part of the open ids, listed from the innermost out, that leads from an id back to it. -/
def loopBack (up : List String) (id : String) : List String :=
  up.reverse.dropWhile (· ≠ id) ++ [id]

/-- How many elements of a network are not open. -/
def unopened (n : Network) (up : List String) : Nat :=
  (n.elements.filter fun e => e.id ∉ up).length

private theorem unopened_cons_lt {n : Network} {id : String} {e : Element} {up : List String}
    (found : n.element? id = some e) (closed : e.id ∉ up) :
    unopened n (e.id :: up) < unopened n up := by
  have hsub : (n.elements.filter fun d => d.id ∉ e.id :: up) =
      (n.elements.filter fun d => d.id ∉ up).filter fun d => d.id ≠ e.id := by
    rw [List.filter_filter]
    refine List.filter_congr fun d _ => ?_
    simp
  unfold unopened
  rw [hsub]
  refine List.length_filter_lt_length_iff_exists.mpr ⟨e, ?_, by simp⟩
  simpa [closed] using Network.mem_of_element? found

/-- Applies an element to its inputs, unless reading them failed. -/
def applyTo (w : Surroundings) (e : Element) :
    Except Error (Table Signal) × Memory → Except Error Signal × Memory
  | (.ok inputs, m) => apply w e inputs m
  | (.error fault, m) => (.error fault, m)

/-- What arrives from an output of an evaluated element, unless its evaluation failed. -/
def arrive (source : Element) (port : String) :
    Except Error Signal × Memory → Except Error Signal × Memory
  | (.ok s, m) => (portSignal m.states source port s, m)
  | (.error fault, m) => (.error fault, m)

/-- The result that is kept of an element, or else another one. -/
def keptOr (w : Surroundings) (e : Element) (m : Memory) (other : Except Error Signal × Memory) :
    Except Error Signal × Memory :=
  match m.keptSignal? w e with
  | some kept => (.ok kept, m)
  | none => other

/-- Reads ports one after the other while elements are open; a source that is open itself closes a
cycle. -/
def gather (w : Surroundings) (up : List String) (ports : List (String × PortEnd))
    (inputs : Table Signal) (m : Memory) : Except Error (Table Signal) × Memory :=
  match ports with
  | [] => (.ok inputs, m)
  | (port, r) :: rest =>
    match found : w.network.element? r.element with
    | none => (.error (.unknown r.element), m)
    | some source =>
      if opened : source.id ∈ up then (.error (.cycle (loopBack up source.id)), m)
      else
        have := unopened_cons_lt found opened
        match arrive source r.port (keptOr w source m (applyTo w source
            (gather w (source.id :: up) (Frame.fresh w.network source).pending [] m))) with
        | (.ok s, m) => gather w up rest (inputs.put port s) m
        | (.error fault, m) => (.error fault, m)
  termination_by (unopened w.network up, ports.length)

/-- Evaluates an element while others are open. -/
def descend (w : Surroundings) (up : List String) (e : Element) (m : Memory) :
    Except Error Signal × Memory :=
  keptOr w e m (applyTo w e (gather w (e.id :: up) (Frame.fresh w.network e).pending [] m))

namespace Machine

variable {w : Surroundings}

private theorem run_of_done {m : Machine} {result : Except Error Signal} {memory : Memory}
    (h : m.step w = .done result memory) : run w m = (result, memory) := by
  rw [run]
  split
  · rename_i h'
    rw [h] at h'
    cases h'
    rfl
  · rename_i h'
    rw [h] at h'
    cases h'

private theorem run_of_more {m next : Machine} (h : m.step w = .more next) : run w m = run w next := by
  rw [run]
  split
  · rename_i h'
    rw [h] at h'
    cases h'
  · rename_i h'
    rw [h] at h'
    cases h'
    rfl

/-- Goes on with the frames below when an element has been evaluated. -/
def resume (w : Surroundings) (below : List Waiting) (e : Element)
    (outcome : Except Error Signal × Memory) : Except Error Signal × Memory :=
  match below with
  | [] => outcome
  | b :: rest => match arrive e b.output outcome with
    | (.ok s, m) => run w ⟨deliver b.frame b.port s, rest, m⟩
    | (.error fault, m) => (.error fault, m)

private theorem resume_error (below : List Waiting) (e : Element) (fault : Error) (m : Memory) :
    resume w below e (.error fault, m) = (.error fault, m) := by
  cases below <;> rfl

private theorem run_closed (e : Element) (inputs : Table Signal) (below : List Waiting)
    (m : Memory) : run w ⟨⟨e, [], inputs⟩, below, m⟩ = resume w below e (apply w e inputs m) := by
  rcases happly : apply w e inputs m with ⟨fault | s, memory⟩
  · rw [resume_error]
    refine run_of_done ?_
    simp only [step, close, happly]
  · cases below with
    | nil =>
      refine run_of_done ?_
      simp only [step, close, happly]
    | cons b rest =>
      rcases hport : portSignal memory.states e b.output s with fault | t
      · rw [resume, arrive, hport]
        refine run_of_done ?_
        simp only [step, close, happly, hport]
      · rw [resume, arrive, hport]
        refine run_of_more ?_
        simp only [step, close, happly, hport]

private def waitingIds (below : List Waiting) : List String :=
  below.map fun b => b.frame.element.id

private theorem contains_path (f : Frame) (below : List Waiting) (m : Memory) (id : String) :
    (path ⟨f, below, m⟩).contains id = decide (id ∈ f.element.id :: waitingIds below) := by
  rw [List.contains_eq_mem]
  refine decide_eq_decide.mpr ?_
  rw [path, List.mem_reverse, frames, List.map_cons, List.map_map]
  exact Iff.rfl

private theorem loopAt_eq (f : Frame) (below : List Waiting) (m : Memory) (id : String) :
    loopAt ⟨f, below, m⟩ id = loopBack (f.element.id :: waitingIds below) id := by
  simp only [loopAt, loopBack, path, frames, waitingIds, List.map_cons, List.map_map,
    Function.comp_def]

/-- The step that reads a port whose source is not open: with a kept result the top frame goes on,
and else a frame is opened for the source. -/
private theorem step_read {e source : Element} {r : PortEnd} {below : List Waiting}
    (port : String) (rest : List (String × PortEnd)) (inputs : Table Signal) (m : Memory)
    (found : w.network.element? r.element = some source)
    (closed : source.id ∉ e.id :: waitingIds below) :
    step w ⟨⟨e, (port, r) :: rest, inputs⟩, below, m⟩ =
      match m.keptSignal? w source with
      | some kept => match portSignal m.states source r.port kept with
        | .ok s => .more ⟨deliver ⟨e, rest, inputs⟩ port s, below, m⟩
        | .error fault => .done (.error fault) m
      | none =>
        .more ⟨Frame.fresh w.network source, ⟨⟨e, rest, inputs⟩, port, r.port⟩ :: below, m⟩ := by
  have hpath : (path ⟨⟨e, (port, r) :: rest, inputs⟩, below, m⟩).contains source.id = false := by
    rw [contains_path]
    exact decide_eq_false closed
  rcases hkept : m.keptSignal? w source with _ | kept
  · simp only [step, read, found, hpath, hkept, Bool.false_eq_true, if_false]
  · rcases hport : portSignal m.states source r.port kept with fault | s
    · simp only [step, read, found, hpath, hkept, hport, Bool.false_eq_true, if_false]
    · simp only [step, read, found, hpath, hkept, hport, Bool.false_eq_true, if_false]

/-- When the evaluation of a source does what an outcome says, the frame that reads it goes on with
what arrives of that outcome, or of the kept result. -/
private theorem run_read {e source : Element} {r : PortEnd} {below : List Waiting} {port : String}
    {rest : List (String × PortEnd)} {inputs : Table Signal} {m : Memory}
    {outcome : Except Error Signal × Memory}
    (found : w.network.element? r.element = some source)
    (closed : source.id ∉ e.id :: waitingIds below)
    (opened : run w ⟨Frame.fresh w.network source, ⟨⟨e, rest, inputs⟩, port, r.port⟩ :: below, m⟩ =
      resume w (⟨⟨e, rest, inputs⟩, port, r.port⟩ :: below) source outcome) :
    run w ⟨⟨e, (port, r) :: rest, inputs⟩, below, m⟩ =
      match arrive source r.port (keptOr w source m outcome) with
      | (.ok s, m') => run w ⟨deliver ⟨e, rest, inputs⟩ port s, below, m'⟩
      | (.error fault, m') => (.error fault, m') := by
  have hstep := step_read port rest inputs m found closed
  rcases hkept : m.keptSignal? w source with _ | kept
  · simp only [hkept] at hstep
    rw [run_of_more hstep, opened, keptOr, hkept]
    rfl
  · rw [keptOr, hkept, arrive]
    rcases hport : portSignal m.states source r.port kept with fault | s
    · simp only [hkept, hport] at hstep
      exact run_of_done hstep
    · simp only [hkept, hport] at hstep
      exact run_of_more hstep

/-- A frame that still reads ports does what the recursion does, and the frames below go on with the
result. The induction is on the recursion; the open ids are those of the frames. -/
private theorem run_eq_gather (up : List String) (ports : List (String × PortEnd)) (inputs : Table Signal)
    (m : Memory) (e : Element) (below : List Waiting) (hup : up = e.id :: waitingIds below) :
    run w ⟨⟨e, ports, inputs⟩, below, m⟩ =
      resume w below e (applyTo w e (gather w up ports inputs m)) := by
  fun_induction gather w up ports inputs m generalizing e below with
  | case1 up inputs m => exact run_closed e inputs below m
  | case2 up inputs m port r rest missing =>
    rw [applyTo, resume_error]
    refine run_of_done ?_
    simp only [step, read, missing]
  | case3 up inputs m port r rest source found opened =>
    have hpath : (path ⟨⟨e, (port, r) :: rest, inputs⟩, below, m⟩).contains source.id = true := by
      rw [contains_path]
      exact decide_eq_true (hup ▸ opened)
    rw [applyTo, resume_error]
    refine run_of_done ?_
    simp only [step, read, found, hpath, if_true, loopAt_eq, hup]
  | case4 up inputs m port r rest source found closed _ s m' arrived ihSource ihRest =>
    rw [run_read found (hup ▸ closed) (ihSource source _ (by rw [hup]; rfl)), arrived]
    exact ihRest e below hup
  | case5 up inputs m port r rest source found closed _ fault m' arrived ihSource =>
    rw [run_read found (hup ▸ closed) (ihSource source _ (by rw [hup]; rfl)), arrived, applyTo,
      resume_error]

end Machine

theorem evaluate_eq_descend (w : Surroundings) (e : Element) (m : Memory) :
    evaluate w e m = descend w [] e m := by
  have hrun : Machine.run w ⟨Frame.fresh w.network e, [], m⟩ =
      applyTo w e (gather w [e.id] (Frame.fresh w.network e).pending [] m) :=
    Machine.run_eq_gather [e.id] _ [] m e [] rfl
  rcases hkept : m.keptSignal? w e with _ | kept
  · simp only [evaluate, descend, keptOr, hkept, hrun]
  · simp only [evaluate, descend, keptOr, hkept]

end RungLogic.Scan
