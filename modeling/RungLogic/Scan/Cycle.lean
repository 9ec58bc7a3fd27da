import RungLogic.Scan.Machine

/-!
One scan: every coil that has a variable and a wire is evaluated in the order of the elements, and
its value is written at once, so that later coils see it. A write that the variable refuses is
reported; an error ends the scan.
-/

set_option autoImplicit false
set_option relaxedAutoImplicit false

namespace RungLogic.Scan

/-- What a scan reads beside the variables. -/
structure Setting where
  network : Network
  now : Number
  memoize : Bool

def Setting.over (s : Setting) (store : Store) : Surroundings :=
  { network := s.network, store := store, now := s.now, memoize := s.memoize }

/-- The variables and the memory in the course of a scan. -/
structure Progress where
  store : Store
  memory : Memory

/-- The wire and the variable of a coil that takes part in scans. -/
def coilLine? (n : Network) (e : Element) : Option (PortEnd × String) :=
  if e.kind.isCoil then
    match feed? n e.id "in", e.reference? with
    | some source, some target => if target = "" then none else some (source, target)
    | _, _ => none
  else none

def readPort (w : Surroundings) (r : PortEnd) (m : Memory) : Except Error Signal × Memory :=
  match w.network.element? r.element with
  | none => (.error (.unknown r.element), m)
  | some e => match evaluate w e m with
    | (.ok s, m) => (portSignal m.states e r.port s, m)
    | (.error fault, m) => (.error fault, m)

def writeCoil (e : Element) (target : String) (b : Bool) (p : Progress) : Progress :=
  let memory := p.memory.record e.id (.truth b)
  match p.store.write (.text target) (.bool b) with
  | .ok store => ⟨store, memory⟩
  | .error fault => ⟨p.store, memory.say [.writeRefused e.title target fault.message]⟩

def coilValue (e : Element) (s : Signal) : Bool := s.isOn != (e.kind == .coilNegated)

def scanElements (setting : Setting) : List Element → Progress → Option Error × Progress
  | [], p => (none, p)
  | e :: rest, p =>
    match coilLine? setting.network e with
    | none => scanElements setting rest p
    | some (source, target) =>
      match readPort (setting.over p.store) source p.memory with
      | (.error fault, memory) => (some fault, { p with memory := memory })
      | (.ok s, memory) =>
        scanElements setting rest (writeCoil e target (coilValue e s) { p with memory := memory })

/-- A scan goes through elements part by part, as long as no error ends it. -/
theorem scanElements_append (setting : Setting) (es ds : List Element) (p : Progress) :
    scanElements setting (es ++ ds) p =
      match scanElements setting es p with
      | (none, q) => scanElements setting ds q
      | ended => ended := by
  fun_induction scanElements setting es p with
  | case1 p => rfl
  | case2 e rest p line ih =>
    rw [List.cons_append, scanElements, line]
    exact ih
  | case3 e rest p source target line fault m read =>
    rw [List.cons_append, scanElements, line]
    simp only [read]
  | case4 e rest p source target line s m read ih =>
    rw [List.cons_append, scanElements, line]
    simp only [read]
    exact ih

theorem scanElements_idle {setting : Setting} {es : List Element}
    (idle : ∀ e ∈ es, coilLine? setting.network e = none) (p : Progress) :
    scanElements setting es p = (none, p) := by
  induction es with
  | nil => rfl
  | cons e rest ih =>
    rw [scanElements, idle e List.mem_cons_self]
    exact ih fun d hd => idle d (List.mem_cons_of_mem e hd)

end RungLogic.Scan
