import RungLogic.Proofs.Build.Execution

/-!
Built networks run like the accumulator machine. A scan goes through the coils and evaluates each
rung from its end, where the machine goes through the lines; both write the same variables in the
same order. A line whose accumulator reaches no store is never evaluated in the network, so only the
states of the other lines agree.
-/

set_option autoImplicit false
set_option relaxedAutoImplicit false

namespace RungLogic

open Scan
open Accumulator (Line)

/-- Whether a program stores the accumulator, before it is loaded anew, in a variable that is named.
-/
def Program.reaches : Program → Bool
  | [] => false
  | i :: rest => match i.operator.cell? with
    | some (.load _) => false
    | some (.store _) => i.operand.any fun target => target ≠ ""
    | _ => reaches rest

def Accumulator.program (lines : List Line) : Program := lines.map Line.instruction

open Accumulator (program)

/-- The states of the elements that are laid from a cursor on are those of the lines, as far as the
elements are evaluated. -/
def Agree (states : Table ElementState) : Cursor → List Line → Prop
  | _, [] => True
  | c, l :: rest => match l.instruction.operator.cell? with
    | some cell =>
      ((program rest).reaches = true →
        states.value? (c.laid l.instruction.operand cell).main.id = l.state) ∧
      Agree states (c.lay l.instruction.operand cell).2 rest
    | none => Agree states c rest

private theorem Agree.congr {states other : Table ElementState} {c : Cursor} {lines : List Line}
    (h : Agree states c lines)
    (same : ∀ e ∈ laidElements (c.laids (program lines)),
      other.value? e.id = states.value? e.id) : Agree other c lines := by
  induction lines generalizing c with
  | nil => trivial
  | cons l rest ih =>
    rcases hcell : l.instruction.operator.cell? with _ | cell
    · simp only [Agree, hcell, program, List.map_cons, Cursor.laids] at h same ⊢
      exact ih h same
    · simp only [Agree, hcell, program, List.map_cons, Cursor.laids] at h same ⊢
      refine ⟨fun live => ?_, ih h.2 fun e he => same e (List.mem_append_right _ he)⟩
      rw [same _ (List.mem_append_left _ (Laid.main_mem_elements _))]
      exact h.1 live

namespace Accumulator

theorem Line.execute_of_skip {l : Line} (hcell : l.instruction.operator.cell? = none)
    (now : Number) (acc : Option Signal) (store : Store) :
    l.execute now acc store = ⟨l, acc, store⟩ := by
  obtain ⟨⟨op, operand, modifier⟩, state⟩ := l
  cases op <;> first | rfl | cases hcell

theorem Line.execute_of_store {l : Line} {kind : Kind}
    (hcell : l.instruction.operator.cell? = some (.store kind)) (now : Number)
    (acc : Option Signal) (store : Store) :
    l.execute now acc store =
      ⟨l, none, save store l.instruction.operand acc (kind == .coilNegated)⟩ := by
  obtain ⟨⟨op, operand, modifier⟩, state⟩ := l
  cases op <;> first | cases hcell; rfl | cases hcell

theorem Line.exists_load {l : Line} {cell : Cell}
    (hcell : l.instruction.operator.cell? = some cell) (hstore : ∀ kind, cell ≠ .store kind)
    (now : Number) (acc : Option Signal) (store : Store) :
    ∃ loaded, load? store now l.instruction.operand acc l.state l.instruction.operator =
        some loaded ∧
      l.execute now acc store = ⟨{ l with state := loaded.2 }, some loaded.1, store⟩ := by
  obtain ⟨⟨op, operand, modifier⟩, state⟩ := l
  cases op <;> first | exact ⟨_, rfl, rfl⟩ | (cases hcell; exact (hstore _ rfl).elim) | cases hcell

end Accumulator

/-- What the rest of a scan finds: the rung has come to a cursor with an accumulator; `m` is the
memory of the scan, and `m₁` what it is when the carrier has been evaluated. -/
structure Ready (setting : Setting) (c : Cursor) (acc : Option Signal) (lines : List Line)
    (store : Store) (m m₁ : Memory) : Prop where
  carries : Carries setting.network c.carrier (c.laids (program lines))
  consistent : Consistent setting.network m.states
  consistent' : Consistent setting.network m₁.states
  pending : Pending (setting.over store) m c.carrier acc (program lines).reaches m₁
  agree : Agree m₁.states c lines
  unkept : ∀ e ∈ laidElements (c.laids (program lines)),
    m.kept.value? e.id = none ∧ m₁.kept.value? e.id = none

variable {setting : Setting} {c : Cursor} {acc : Option Signal} {l : Line} {rest : List Line}
  {store : Store} {m m₁ : Memory}

private theorem Ready.carries_cons (h : Ready setting c acc (l :: rest) store m m₁) {cell : Cell}
    (hcell : l.instruction.operator.cell? = some cell) :
    Carries setting.network c.carrier (c.laid l.instruction.operand cell ::
      (c.lay l.instruction.operand cell).2.laids (program rest)) := by
  have carries := h.carries
  simp only [program, List.map_cons, Cursor.laids, hcell] at carries
  exact carries

private theorem Ready.carries_rest (h : Ready setting c acc (l :: rest) store m m₁) {cell : Cell}
    (hcell : l.instruction.operator.cell? = some cell) :
    Carries setting.network (c.lay l.instruction.operand cell).2.carrier
      ((c.lay l.instruction.operand cell).2.laids (program rest)) := by
  rw [(Cursor.lay_spec c l.instruction.operand (Operator.isProper_of_cell? hcell)).2.1]
  exact (h.carries_cons hcell).tail

private theorem Ready.agree_cons (h : Ready setting c acc (l :: rest) store m m₁) {cell : Cell}
    (hcell : l.instruction.operator.cell? = some cell) :
    ((program rest).reaches = true →
      m₁.states.value? (c.laid l.instruction.operand cell).main.id = l.state) ∧
      Agree m₁.states (c.lay l.instruction.operand cell).2 rest := by
  have agree := h.agree
  simp only [Agree, hcell] at agree
  exact agree

private theorem Ready.unkept_cons (h : Ready setting c acc (l :: rest) store m m₁) {cell : Cell}
    (hcell : l.instruction.operator.cell? = some cell) :
    ∀ e ∈ (c.laid l.instruction.operand cell).elements ++
        laidElements ((c.lay l.instruction.operand cell).2.laids (program rest)),
      m.kept.value? e.id = none ∧ m₁.kept.value? e.id = none := by
  have unkept := h.unkept
  simp only [program, List.map_cons, Cursor.laids, hcell] at unkept
  exact unkept

private theorem Ready.skip (h : Ready setting c acc (l :: rest) store m m₁)
    (hcell : l.instruction.operator.cell? = none) : Ready setting c acc rest store m m₁ := by
  obtain ⟨carries, consistent, consistent', pending, agree, unkept⟩ := h
  simp only [Agree, program, List.map_cons, Cursor.laids, Program.reaches, hcell] at *
  exact ⟨carries, consistent, consistent', pending, agree, unkept⟩

private theorem reaches_cons {i : Instruction} {cell : Cell} (hcell : i.operator.cell? = some cell)
    (hstore : ∀ kind, cell ≠ .store kind) (p : Program) :
    ((∃ kind, cell = .load kind) ∧ Program.reaches (i :: p) = false) ∨
      ((∀ operand, (c.laid operand cell).feeder = c.carrier) ∧
        Program.reaches (i :: p) = Program.reaches p) := by
  cases cell with
  | load kind => exact .inl ⟨⟨kind, rfl⟩, by simp [Program.reaches, hcell]⟩
  | store kind => exact (hstore kind rfl).elim
  | _ => exact .inr ⟨fun _ => rfl, by simp [Program.reaches, hcell]⟩

private theorem carrier_laid {cell : Cell} (hstore : ∀ kind, cell ≠ .store kind) (c : Cursor)
    (operand : Option String) :
    (c.lay operand cell).2.carrier = some (c.laid operand cell).main := by
  cases cell with
  | store kind => exact (hstore kind rfl).elim
  | _ => rfl

private theorem Ready.pending_feeder {w : Surroundings} {i : Instruction} {cell : Cell}
    (hcell : i.operator.cell? = some cell) (hstore : ∀ kind, cell ≠ .store kind) {p : Program}
    (live : p.reaches = true) (pending : Pending w m c.carrier acc (Program.reaches (i :: p)) m₁)
    {now : Number} {state : Option ElementState} {loaded : Signal × Option ElementState}
    (hload : Accumulator.load? store now i.operand acc state i.operator = some loaded) :
    ∃ acc', Pending w m (c.laid i.operand cell).feeder acc' true m₁ ∧
      Accumulator.load? store now i.operand acc' state i.operator = some loaded := by
  rcases @reaches_cons c i cell hcell hstore p with ⟨⟨kind, rfl⟩, dead⟩ | ⟨hfeeder, same⟩
  · rw [dead] at pending
    rw [pending.eq_of_dead]
    refine ⟨none, .empty true, ?_⟩
    obtain ⟨op, operand, modifier⟩ := i
    cases op <;> first | exact hload | cases hcell
  · rw [same, live] at pending
    exact ⟨acc, hfeeder i.operand ▸ pending, hload⟩

private theorem Ready.load_dead (h : Ready setting c acc (l :: rest) store m m₁) {cell : Cell}
    (hcell : l.instruction.operator.cell? = some cell) (hstore : ∀ kind, cell ≠ .store kind)
    (hdead : (program rest).reaches = false) (s : Signal) :
    Ready setting (c.lay l.instruction.operand cell).2 (some s) rest store m m₁ := by
  have pending := h.pending
  have dead : (program (l :: rest)).reaches = false := by
    rcases @reaches_cons c l.instruction cell hcell hstore (program rest) with ⟨-, h⟩ | ⟨-, h⟩
    · exact h
    · exact h.trans hdead
  rw [dead] at pending
  refine ⟨h.carries_rest hcell, h.consistent, h.consistent', ?_, (h.agree_cons hcell).2,
    fun e he => h.unkept_cons hcell e (List.mem_append_right _ he)⟩
  rw [carrier_laid hstore c l.instruction.operand, hdead, pending.eq_of_dead]
  exact .dead _ _

private theorem Ready.load (coherent : setting.network.Coherent)
    (h : Ready setting c acc (l :: rest) store m m₁) {cell : Cell}
    (hcell : l.instruction.operator.cell? = some cell) (hstore : ∀ kind, cell ≠ .store kind)
    {loaded : Signal × Option ElementState}
    (hload : Accumulator.load? store setting.now l.instruction.operand acc l.state
      l.instruction.operator = some loaded) :
    ∃ m₂, Ready setting (c.lay l.instruction.operand cell).2 (some loaded.1) rest store m m₂ ∧
      (∀ id, id ≠ (c.laid l.instruction.operand cell).main.id →
        m₂.states.value? id = m₁.states.value? id) ∧
      ((program rest).reaches = true →
        m₂.states.value? (c.laid l.instruction.operand cell).main.id = loaded.2) := by
  rcases hlive : (program rest).reaches with _ | _
  · exact ⟨m₁, h.load_dead hcell hstore hlive loaded.1, fun _ _ => rfl, fun live => by cases live⟩
  have carries := h.carries_cons hcell
  have unkept := h.unkept_cons hcell
  obtain ⟨state, agree⟩ := h.agree_cons hcell
  obtain ⟨acc', pending', hload'⟩ := Ready.pending_feeder hcell hstore hlive h.pending hload
  rw [← state hlive] at hload'
  obtain ⟨m₂, evaluates, hstates, consistent₂, hkept⟩ :=
    @Pending.evaluates _ _ (setting.over store) coherent _ _ _ _ hcell carries _ _ _ pending'
      h.consistent' (unkept _ (List.mem_append_left _ (Laid.main_mem_elements _))).1 _ hload'
  have hne := carries.apart.main_rest
  refine ⟨m₂, ⟨h.carries_rest hcell, h.consistent, consistent₂, ?_, ?_, ?_⟩, ?_, ?_⟩
  · rw [carrier_laid hstore c l.instruction.operand, hlive]
    exact .live evaluates
  · refine agree.congr fun e he => ?_
    rw [hstates, if_neg (hne e he)]
  · intro e he
    obtain ⟨before, after⟩ := unkept e (List.mem_append_right _ he)
    refine ⟨before, ?_⟩
    rcases hvalue : m₂.kept.value? e.id with _ | s
    · rfl
    · rcases hkept e.id s hvalue with hid | hvalue
      · exact (hne e he hid).elim
      · cases after.symm.trans hvalue
  · intro id hid
    rw [hstates, if_neg hid]
  · intro _
    rw [hstates, if_pos rfl]

private theorem scan_coil_live {e a : Element} {es : List Element} {v : Signal} {target : String}
    (found : setting.network.element? a.id = some a)
    (hline : coilLine? setting.network e = some (⟨a.id, a.kind.primaryOutput⟩, target))
    (heval : evaluate (setting.over store) a m = (.ok v, m₁)) :
    ∃ m₂, scanElements setting (e :: es) ⟨store, m⟩ = scanElements setting es
        ⟨Accumulator.save store (some target) (some v) (e.kind == .coilNegated), m₂⟩ ∧
      m₂.states = m₁.states ∧ m₂.kept = m₁.kept := by
  have hread : readPort (setting.over store) ⟨a.id, a.kind.primaryOutput⟩ m = (.ok v, m₁) := by
    have found' : (setting.over store).network.element? a.id = some a := found
    simp only [readPort, found', heval, portSignal_primaryOutput]
  have hnamed : target ≠ "" := (coilLine?_eq_some_iff.mp hline).2.2.2
  refine ⟨(writeCoil e target (coilValue e v) ⟨store, m₁⟩).memory, ?_, ?_, ?_⟩
  · simp only [scanElements, hline, hread, Accumulator.save, if_neg hnamed]
    congr 1
    unfold writeCoil coilValue
    split
    · simp_all
    · simp_all
  · unfold writeCoil
    split <;> rfl
  · unfold writeCoil
    split <;> rfl

private theorem reference?_coil (c : Cursor) (operand : Option String) (kind : Kind) :
    (c.laid operand (.store kind)).main.reference? = operand :=
  Element.reference?_mk ..

private theorem Ready.pending_store (h : Ready setting c acc (l :: rest) store m m₁) {kind : Kind}
    (hcell : l.instruction.operator.cell? = some (.store kind)) :
    Pending (setting.over store) m c.carrier acc
      (l.instruction.operand.any fun target => target ≠ "") m₁ := by
  have pending := h.pending
  simp only [program, List.map_cons, Program.reaches, hcell] at pending
  exact pending

private theorem Ready.idle (h : Ready setting c acc (l :: rest) store m m₁) {kind : Kind}
    (hcell : l.instruction.operator.cell? = some (.store kind))
    (hline : coilLine? setting.network (c.laid l.instruction.operand (.store kind)).main = none)
    (negated : Bool) :
    m₁ = m ∧ Accumulator.save store l.instruction.operand acc negated = store := by
  have proper := Operator.isProper_of_cell? hcell
  have hfeed := (h.carries_cons hcell).feed?_coil proper
  have hfeeder : (c.laid l.instruction.operand (.store kind)).feeder = c.carrier := rfl
  have pending := h.pending_store hcell
  rw [hfeeder] at hfeed
  generalize c.carrier = carrier at pending hfeed
  generalize hnamed : (l.instruction.operand.any fun target => decide (target ≠ "")) = named
    at pending
  cases pending with
  | empty => exact ⟨rfl, rfl⟩
  | dead a v =>
    refine ⟨rfl, ?_⟩
    rcases hoperand : l.instruction.operand with _ | target
    · rfl
    · have hempty : target = "" := by simpa [hoperand] using hnamed
      rw [Accumulator.save, if_pos hempty]
  | @live a v _ _ =>
    obtain ⟨target, htarget, hnamed⟩ := (Option.any_eq_true _ _).mp hnamed
    have hsome : coilLine? setting.network (c.laid l.instruction.operand (.store kind)).main =
        some (⟨a.id, a.kind.primaryOutput⟩, target) :=
      coilLine?_eq_some_iff.mpr
        ⟨proper, hfeed, (reference?_coil c _ kind).trans htarget, of_decide_eq_true hnamed⟩
    rw [hline] at hsome
    cases hsome

private theorem Ready.drives (h : Ready setting c acc (l :: rest) store m m₁) {kind : Kind}
    (hcell : l.instruction.operator.cell? = some (.store kind)) {source : PortEnd} {target : String}
    (hline : coilLine? setting.network (c.laid l.instruction.operand (.store kind)).main =
      some (source, target)) :
    ∃ a v, setting.network.element? a.id = some a ∧ source = ⟨a.id, a.kind.primaryOutput⟩ ∧
      l.instruction.operand = some target ∧ acc = some v ∧
      Evaluates (setting.over store) a m v m₁ := by
  have carries := h.carries_cons hcell
  obtain ⟨hcoil, hsource, htarget, hnamed⟩ := coilLine?_eq_some_iff.mp hline
  rw [carries.feed?_coil hcoil] at hsource
  rw [reference?_coil] at htarget
  have hfeeder : (c.laid l.instruction.operand (.store kind)).feeder = c.carrier := rfl
  have hlive : (l.instruction.operand.any fun target => decide (target ≠ "")) = true := by
    simp [htarget, hnamed]
  have pending := h.pending_store hcell
  rw [hlive] at pending
  have found := carries.found
  rw [hfeeder] at hsource
  generalize c.carrier = carrier at pending hsource found
  cases pending with
  | empty => cases hsource
  | @live a v _ evaluates =>
    exact ⟨a, v, found a (by simp), (Option.some.inj hsource).symm, htarget, rfl, evaluates⟩

private theorem Ready.behind_coil (h : Ready setting c acc (l :: rest) store m m₁) {kind : Kind}
    (hcell : l.instruction.operator.cell? = some (.store kind)) {m₂ : Memory}
    (hstates : m₂.states = m₁.states) (hkept : m₂.kept = m₁.kept) (store' : Store) :
    Ready setting (c.lay l.instruction.operand (.store kind)).2 none rest store' m₂ m₂ := by
  refine ⟨h.carries_rest hcell, hstates ▸ h.consistent', hstates ▸ h.consistent', .empty _,
    hstates ▸ (h.agree_cons hcell).2, ?_⟩
  intro e he
  obtain ⟨-, unkept⟩ := h.unkept_cons hcell e (List.mem_append_right _ he)
  rw [hkept]
  exact ⟨unkept, unkept⟩

/-- A store lays a coil: where the accumulator reaches it, the scan saves it as the machine does, and
where it does not, neither does anything. -/
private theorem Ready.save (coherent : setting.network.Coherent)
    (acyclic : ∀ id, ¬ ReachesCycle setting.network id)
    (h : Ready setting c acc (l :: rest) store m m₁) {kind : Kind}
    (hcell : l.instruction.operator.cell? = some (.store kind)) (es : List Element) :
    ∃ m₂, scanElements setting ((c.laid l.instruction.operand (.store kind)).main :: es) ⟨store, m⟩ =
        scanElements setting es
          ⟨Accumulator.save store l.instruction.operand acc (kind == .coilNegated), m₂⟩ ∧
      m₂.states = m₁.states ∧
      Ready setting (c.lay l.instruction.operand (.store kind)).2 none rest
        (Accumulator.save store l.instruction.operand acc (kind == .coilNegated)) m₂ m₂ := by
  rcases hline : coilLine? setting.network (c.laid l.instruction.operand (.store kind)).main
    with _ | ⟨source, target⟩
  · obtain ⟨hm, hsave⟩ := h.idle hcell hline (kind == .coilNegated)
    refine ⟨m₁, ?_, rfl, h.behind_coil hcell rfl rfl _⟩
    rw [scanElements, hline, hsave, hm]
  · obtain ⟨a, v, found, rfl, htarget, rfl, evaluates⟩ := h.drives hcell hline
    have heval := (evaluate_iff (w := setting.over store) coherent (Network.mem_of_element? found)
      (acyclic a.id) h.consistent).mpr evaluates
    obtain ⟨m₂, hscan, hstates, hkept⟩ := @scan_coil_live _ _ m _ _ _ es _ _ found hline heval
    refine ⟨m₂, ?_, hstates, h.behind_coil hcell hstates hkept _⟩
    rw [hscan, htarget]
    rfl

private theorem scanElements_append_idle (setting : Setting) (before es : List Element) (p : Progress)
    (idle : ∀ e ∈ before, e.kind.isCoil = false) :
    scanElements setting (before ++ es) p = scanElements setting es p := by
  have hline : ∀ e ∈ before, coilLine? setting.network e = none := by
    intro e he
    simp [coilLine?, idle e he]
  rw [scanElements_append, scanElements_idle hline]

private theorem isCoil_laid {cell : Cell} (proper : cell.isProper = true)
    (hstore : ∀ kind, cell ≠ .store kind) (c : Cursor) (operand : Option String) :
    ∀ e ∈ (c.laid operand cell).elements, e.kind.isCoil = false := by
  intro e he
  cases cell with
  | store kind => exact (hstore kind rfl).elim
  | load kind | preset kind | operand kind =>
    cases List.mem_singleton.mp he
    cases kind <;> first | rfl | cases proper
  | invert =>
    cases List.mem_singleton.mp he
    rfl
  | gate side kind =>
    obtain ⟨hside, hgate⟩ := Bool.and_eq_true_iff.mp proper
    rcases List.mem_cons.mp he with rfl | he
    · cases side <;> first | rfl | cases hside
    · cases List.mem_singleton.mp he
      cases kind <;> first | rfl | cases hgate

namespace Accumulator

theorem Line.instruction_execute (l : Line) (now : Number) (acc : Option Signal) (store : Store) :
    (l.execute now acc store).line.instruction = l.instruction := by
  unfold Line.execute
  dsimp only
  split
  · rfl
  · split <;> rfl

theorem program_scan (now : Number) (lines : List Line) (acc : Option Signal) (store : Store) :
    program (scan now lines acc store).1 = program lines := by
  induction lines generalizing acc store with
  | nil => rfl
  | cons l rest ih =>
    simp only [program, scan, List.map_cons, Line.instruction_execute] at ih ⊢
    rw [ih]

end Accumulator

/-- One line: the scan goes through its elements, and the machine executes it. -/
private theorem Ready.line (coherent : setting.network.Coherent)
    (acyclic : ∀ id, ¬ ReachesCycle setting.network id)
    (h : Ready setting c acc (l :: rest) store m m₁) {cell : Cell}
    (hcell : l.instruction.operator.cell? = some cell) (es : List Element) :
    ∃ m' m₂,
      scanElements setting ((c.laid l.instruction.operand cell).elements ++ es) ⟨store, m⟩ =
        scanElements setting es ⟨(l.execute setting.now acc store).store, m'⟩ ∧
      Ready setting (c.lay l.instruction.operand cell).2 (l.execute setting.now acc store).acc rest
        (l.execute setting.now acc store).store m' m₂ ∧
      (∀ id, id ≠ (c.laid l.instruction.operand cell).main.id →
        m₂.states.value? id = m₁.states.value? id) ∧
      ((program rest).reaches = true →
        m₂.states.value? (c.laid l.instruction.operand cell).main.id =
          (l.execute setting.now acc store).line.state) := by
  by_cases hstore : ∃ kind, cell = .store kind
  · obtain ⟨kind, rfl⟩ := hstore
    obtain ⟨m₂, hscan, hstates, ready⟩ := h.save coherent acyclic hcell es
    rw [Line.execute_of_store hcell]
    refine ⟨m₂, m₂, hscan, ready, fun id _ => by rw [hstates], fun live => ?_⟩
    rw [hstates]
    exact (h.agree_cons hcell).1 live
  · have hstore' : ∀ kind, cell ≠ .store kind := fun kind same => hstore ⟨kind, same⟩
    obtain ⟨loaded, hload, hexecute⟩ := Line.exists_load hcell hstore' setting.now acc store
    obtain ⟨m₂, ready, hframe, hstate⟩ := h.load coherent hcell hstore' hload
    rw [hexecute]
    refine ⟨m, m₂, ?_, ready, hframe, hstate⟩
    exact scanElements_append_idle setting _ es _
      (isCoil_laid (Operator.isProper_of_cell? hcell) hstore' c l.instruction.operand)

/-- The end of a scan: no error, the variables of the machine, the states of its lines, and what was
laid before is as it has been left. -/
structure Ran (c : Cursor) (lines : List Line) (done : List Line × Store) (m₁ : Memory)
    (o : Option Error × Progress) : Prop where
  error : o.1 = none
  store : o.2.store = done.2
  agree : Agree o.2.memory.states c done.1
  frame : ∀ id, (∀ e ∈ laidElements (c.laids (program lines)), e.id ≠ id) →
    o.2.memory.states.value? id = m₁.states.value? id

/-- The rest of a scan runs like the rest of the lines. The induction is on the lines; what carries it
from line to line is `Ready`. -/
theorem Ready.scan (coherent : setting.network.Coherent)
    (acyclic : ∀ id, ¬ ReachesCycle setting.network id) {lines : List Line}
    (h : Ready setting c acc lines store m m₁) :
    Ran c lines (Accumulator.scan setting.now lines acc store) m₁
      (scanElements setting (laidElements (c.laids (program lines))) ⟨store, m⟩) := by
  induction lines generalizing c acc store m m₁ with
  | nil =>
    refine ⟨rfl, rfl, trivial, fun id _ => ?_⟩
    rw [h.pending.eq_of_dead]
    rfl
  | cons l rest ih =>
    rcases hcell : l.instruction.operator.cell? with _ | cell
    · have ran := ih (h.skip hcell)
      have hlaids : c.laids (program (l :: rest)) = c.laids (program rest) := by
        simp [program, Cursor.laids, hcell]
      refine ⟨?_, ?_, ?_, ?_⟩
      · rw [hlaids]
        exact ran.error
      · rw [hlaids, Accumulator.scan, Line.execute_of_skip hcell]
        exact ran.store
      · rw [hlaids, Accumulator.scan, Line.execute_of_skip hcell]
        simp only [Agree, hcell]
        exact ran.agree
      · rw [hlaids]
        exact ran.frame
    · have hlaids : laidElements (c.laids (program (l :: rest))) =
          (c.laid l.instruction.operand cell).elements ++
            laidElements ((c.lay l.instruction.operand cell).2.laids (program rest)) := by
        simp [program, Cursor.laids, hcell, laidElements]
      have apart := (h.carries_cons hcell).apart
      obtain ⟨m', m₂, hscan, ready, hframe, hstate⟩ := h.line coherent acyclic hcell
        (laidElements ((c.lay l.instruction.operand cell).2.laids (program rest)))
      have ran := ih ready
      rw [hlaids, hscan]
      refine ⟨ran.error, ran.store, ?_, ?_⟩
      · simp only [Accumulator.scan, Agree, Line.instruction_execute, hcell,
          Accumulator.program_scan]
        refine ⟨fun live => ?_, ran.agree⟩
        -- The rest of the scan leaves the state of this line alone.
        rw [ran.frame _ apart.main_rest]
        exact hstate live
      · intro id hid
        rw [hlaids] at hid
        rw [ran.frame id fun e he => hid e (List.mem_append_right _ he)]
        refine hframe id fun same => ?_
        exact hid _ (List.mem_append_left _ (Laid.main_mem_elements _)) same.symm

end RungLogic
