import RungLogic.Proofs.Build.Accumulator
import RungLogic.Proofs.Build.Laid
import RungLogic.Proofs.Scan.Consistency

/-!
The meaning of what is laid: when the wires of a piece carry the accumulator to its element, what
the element computes is what the instruction loads, and the state that it leaves is the one that the
line keeps.
-/

set_option autoImplicit false
set_option relaxedAutoImplicit false

namespace RungLogic

def contactSignal (store : Store) (e : Element) : Signal :=
  .truth (if e.kind = .contactNegated then !Scan.contactOn store e else Scan.contactOn store e)

/-- What is on the inputs of a piece when the accumulator comes to it. -/
def Laid.inputs (l : Laid) (store : Store) (acc : Option Signal) : Table Signal :=
  match acc with
  | none => []
  | some a => (l.main.kind.primaryInput, a) ::
      l.side.toList.map fun s => ("in2", contactSignal store s)

namespace Scan

theorem computed_contact (w : Surroundings) {e : Element} (h : e.kind.isContact = true)
    (inputs : Table Signal) (m : Memory) :
    computed w e inputs m = { result := .ok (contactSignal w.store e) } := by
  unfold computed compute contactSignal
  rcases Kind.isContact_iff.mp h with hkind | hkind <;> rw [hkind] <;> rfl

/-- What a block computes is what the accumulator machine loads, and leaves the state that the line
keeps when `state` is the one before. -/
structure Loads (done : Computed) (state : Option ElementState)
    (loaded : Signal × Option ElementState) : Prop where
  result : done.result = .ok loaded.1
  state : done.state.or state = loaded.2

private theorem loads_truth (e : Element) (b : Bool) (state : Option ElementState) :
    Loads ((Computed.truth b).settle e) state (.truth b, state) := ⟨rfl, rfl⟩

private theorem loads_ofNumber (x : Option Number) (notices : List Notice) (e : Element)
    (state : Option ElementState) :
    Loads (Computed.settle { result := ofNumber? x, notices := notices } e) state
      (Accumulator.ofNumber x, state) := by
  rcases x with _ | x
  · exact ⟨rfl, rfl⟩
  · exact ⟨rfl, rfl⟩

private theorem loads_quotient (a b : Signal) (notices : List Notice) (e : Element)
    (state : Option ElementState) :
    Loads (Computed.settle { result := (quotient a b).1, notices := notices } e) state
      (Accumulator.quotient a.number b.number, state) := by
  unfold quotient Accumulator.quotient
  split
  · exact ⟨rfl, rfl⟩
  · exact loads_ofNumber _ notices e state

private theorem loads_ofTimer (o : Option (Timer × Bool)) (e : Element)
    (state : Option ElementState) :
    Loads ((ofTimer o).settle e) state (Accumulator.ofTimer state o) := by
  rcases o with _ | ⟨t, on⟩
  · exact ⟨rfl, rfl⟩
  · exact ⟨rfl, rfl⟩

section States

variable {e : Element} {inputs : Table Signal} {state : Option ElementState} {b : Bool} {preset : String}

private theorem loads_timer (e : Element) (step : Timer → Option (Timer × Bool))
    (done : Option ElementState → Computed) (fresh : done none = ofTimer (step {}))
    (running : ∀ t, done (some (.timer t)) = ofTimer (step t)) (h : ∀ c, state ≠ some (.counter c)) :
    Loads ((done state).settle e) state (Accumulator.ofTimer state (step (Accumulator.timer state))) := by
  rcases state with _ | ⟨t⟩ | ⟨c⟩
  · rw [fresh]
    exact loads_ofTimer _ e none
  · rw [running]
    exact loads_ofTimer _ e (some (.timer t))
  · exact (h c rfl).elim

private theorem loads_timerOn (now : Number) (hin : isOn inputs "in" = b)
    (hpreset : e.preset = .text preset) (h : ∀ c, state ≠ some (.counter c)) :
    Loads ((timerOn now e inputs state).settle e) state
      (Accumulator.ofTimer state ((Accumulator.timer state).onDelay b (Preset.textDuration preset)
        now)) := by
  have duration : Preset.duration e.preset = Preset.textDuration preset :=
    congrArg Preset.duration hpreset
  rw [← hin, ← duration]
  exact loads_timer e (·.onDelay _ _ now) (timerOn now e inputs) rfl (fun _ => rfl) h

private theorem loads_timerOff (now : Number) (hin : isOn inputs "in" = b)
    (hpreset : e.preset = .text preset) (h : ∀ c, state ≠ some (.counter c)) :
    Loads ((timerOff now e inputs state).settle e) state
      (Accumulator.ofTimer state ((Accumulator.timer state).offDelay b (Preset.textDuration preset)
        now)) := by
  have duration : Preset.duration e.preset = Preset.textDuration preset :=
    congrArg Preset.duration hpreset
  rw [← hin, ← duration]
  exact loads_timer e (·.offDelay _ _ now) (timerOff now e inputs) rfl (fun _ => rfl) h

private theorem loads_counter (e : Element) (set : Bool) (fresh : Counter)
    (step : Counter → Counter × Bool) (h : ∀ t, state ≠ some (.timer t)) :
    Loads ((counter e set fresh step state).settle e) state
      (Accumulator.ofCounter (step (Accumulator.counter fresh state))) := by
  rcases state with _ | ⟨t⟩ | ⟨c⟩
  · exact ⟨rfl, rfl⟩
  · exact (h t rfl).elim
  · exact ⟨rfl, rfl⟩

private theorem loads_counterUp (hcount : isOn inputs "cu" = b) (hreset : isOn inputs "r" = false)
    (hpreset : e.preset = .text preset) (h : ∀ t, state ≠ some (.timer t)) :
    Loads ((counterUp e inputs state).settle e) state
      (Accumulator.ofCounter ((Accumulator.counter {} state).up b false
        (Preset.count (.text preset)))) := by
  rw [counterUp, hcount, hreset, hpreset]
  exact loads_counter e false {} _ h

private theorem loads_counterDown (hcount : isOn inputs "cd" = b) (hload : isOn inputs "ld" = false)
    (hpreset : e.preset = .text preset) (h : ∀ t, state ≠ some (.timer t)) :
    Loads ((counterDown e inputs state).settle e) state
      (Accumulator.ofCounter ((Accumulator.counter ⟨Preset.count (.text preset), false⟩ state).down b
        false (Preset.count (.text preset)))) := by
  rw [counterDown, hcount, hload, hpreset]
  exact loads_counter e false ⟨Preset.count (.text preset), false⟩ _ h

end States

private theorem secondSide_eq (store : Store) {e : Element} {inputs : Table Signal}
    {operand : Option String} (hin2 : inputs.value? "in2" = none)
    (hoperand : e.operand = .ofText? operand) :
    (secondSide store e inputs).1 = Accumulator.secondSide store operand := by
  rw [secondSide, hin2, hoperand]
  rcases operand with _ | s
  · rfl
  · simp only [Value.ofText?, namedOperand, Accumulator.secondSide]
    rcases Number.readInteger? (Text.trim s) with _ | i
    · rcases Number.readReal? (Text.trim s) with _ | x
      · dsimp only
        split
        · rfl
        · rcases Table.value? (Text.trim s) store with _ | content
          · rfl
          · rfl
      · rfl
    · rfl

end Scan

open Scan

private theorem contactSignal_mk (store : Store) (id : String) (kind : Kind) (position : Position)
    (operand : Option String) :
    contactSignal store ⟨id, kind, position, Cursor.reference operand⟩ =
      .truth (if kind = .contactNegated then !Accumulator.variableOn store operand
        else Accumulator.variableOn store operand) := by
  rw [contactSignal, contactOn, Element.reference?_mk]
  rcases operand with _ | name
  · rfl
  · rfl

namespace Laid

variable {l : Laid} {store : Store} {acc : Option Signal}

private theorem isOn_primaryInput (l : Laid) (store : Store) (acc : Option Signal) :
    Scan.isOn (l.inputs store acc) l.main.kind.primaryInput = Accumulator.isOn acc := by
  rcases acc with _ | a
  · rfl
  · simp [Scan.isOn, inputs, Table.value?, Accumulator.isOn]

private theorem value?_of_side_none (h : l.side = none) {port : String}
    (hport : l.main.kind.primaryInput ≠ port) : (l.inputs store acc).value? port = none := by
  rcases acc with _ | a
  · rfl
  · simp [inputs, h, Table.value?, hport]

private theorem isOn_of_side_none (h : l.side = none) {port : String}
    (hport : l.main.kind.primaryInput ≠ port) : Scan.isOn (l.inputs store acc) port = false := by
  rw [Scan.isOn, value?_of_side_none h hport]
  rfl

private theorem firstSide_eq (h : l.main.kind.primaryInput = "in1") :
    Scan.firstSide (l.inputs store acc) = Accumulator.firstSide acc := by
  rcases acc with _ | a
  · rfl
  · simp [Scan.firstSide, inputs, Table.value?, h, Accumulator.firstSide]

private theorem isOn_in2 {s : Element} (h : l.side = some s) :
    Scan.isOn (l.inputs store acc) "in2" = (acc.isSome && (contactSignal store s).isOn) := by
  rcases acc with _ | a
  · rfl
  · simp [Scan.isOn, inputs, h, Table.value?, Kind.primaryInput_ne_in2]

end Laid

private theorem preset_laid (c : Cursor) (kind : Kind) (fallback : String)
    (operand : Option String) : (c.laid operand (.preset kind fallback)).main.preset =
      .text (Accumulator.presetOr fallback operand) := by
  simp [Cursor.laid, Cursor.element, Cursor.orElse_eq, Accumulator.presetOr]

private theorem sides_laid (store : Store) (c : Cursor) (operand : Option String)
    (acc : Option Signal) {cell : Cell} {kind : Kind} (hcell : cell = .operand kind)
    (hprimary : kind.primaryInput = "in1") :
    firstSide ((c.laid operand cell).inputs store acc) = Accumulator.firstSide acc ∧
      (secondSide store (c.laid operand cell).main ((c.laid operand cell).inputs store acc)).1 =
        Accumulator.secondSide store operand := by
  subst hcell
  have hin2 : ((c.laid operand (.operand kind)).inputs store acc).value? "in2" = none :=
    Laid.value?_of_side_none rfl (Kind.primaryInput_ne_in2 _)
  exact ⟨Laid.firstSide_eq hprimary,
    secondSide_eq store hin2 (by simp [Cursor.laid, Cursor.element])⟩

private theorem second_laid (store : Store) (c : Cursor) (operand : Option String) (a : Signal)
    {side kind : Kind} :
    isOn ((c.laid operand (.gate side kind)).inputs store (some a)) "in2" =
      if side = .contactNegated then !Accumulator.variableOn store operand
      else Accumulator.variableOn store operand := by
  rw [Laid.isOn_in2 rfl]
  exact congrArg Signal.isOn (contactSignal_mk store _ side _ operand)

private theorem loads_gate (w : Surroundings) (c : Cursor) (operand : Option String)
    (acc : Option Signal) (m : Memory) (state : Option ElementState) {side kind : Kind}
    {join : Bool → Bool → Bool} (hprimary : kind.primaryInput = "in1")
    (joins : ∀ inputs state, compute w (c.laid operand (.gate side kind)).main inputs state =
      .truth (join (isOn inputs "in1") (isOn inputs "in2")))
    (off : join false false = false) :
    Loads (computed w (c.laid operand (.gate side kind)).main
        ((c.laid operand (.gate side kind)).inputs w.store acc) m) state
      (.truth (acc.isSome && join (Accumulator.isOn acc) (if side = .contactNegated then
        !Accumulator.variableOn w.store operand else Accumulator.variableOn w.store operand)),
        state) := by
  rw [computed, joins]
  rcases acc with _ | a
  -- Without an accumulator nothing is wired, so neither input is on.
  · exact ⟨congrArg (fun b => Except.ok (Signal.truth b)) off, rfl⟩
  · have hfirst := (c.laid operand (.gate side kind)).isOn_primaryInput w.store (some a)
    rw [show (c.laid operand (.gate side kind)).main.kind.primaryInput = "in1" from hprimary] at hfirst
    rw [hfirst, second_laid w.store c operand a]
    exact loads_truth _ _ _

/-- What a piece computes from the accumulator is what its instruction loads. -/
theorem loads_laid (w : Surroundings) (c : Cursor) {op : Operator} {operand : Option String}
    {cell : Cell} (hcell : op.cell? = some cell) (acc : Option Signal) (m : Memory)
    (hfits : ∀ st, m.states.value? (c.laid operand cell).main.id = some st →
      st.fits (c.laid operand cell).main.kind = true)
    {loaded : Signal × Option ElementState}
    (hload : Accumulator.load? w.store w.now operand acc
      (m.states.value? (c.laid operand cell).main.id) op = some loaded) :
    Loads (computed w (c.laid operand cell).main ((c.laid operand cell).inputs w.store acc) m)
      (m.states.value? (c.laid operand cell).main.id) loaded := by
  have hprimary := (c.laid operand cell).isOn_primaryInput w.store acc
  cases op with
  | xor | tp | ctud | r | s | st | stn => cases hload
  | ld | ldn =>
    cases hcell
    cases hload
    rw [computed_contact w rfl]
    refine ⟨congrArg Except.ok ?_, rfl⟩
    exact (contactSignal_mk _ _ _ _ _).trans (by simp)
  | not =>
    cases hcell
    cases hload
    rw [← hprimary]
    exact loads_truth _ _ _
  | ton =>
    cases hcell
    cases hload
    exact loads_timerOn w.now hprimary (preset_laid c _ _ operand) fun _ hst => by cases hfits _ hst
  | tof =>
    cases hcell
    cases hload
    exact loads_timerOff w.now hprimary (preset_laid c _ _ operand) fun _ hst => by cases hfits _ hst
  | ctu =>
    cases hcell
    cases hload
    exact loads_counterUp hprimary (Laid.isOn_of_side_none rfl (by decide : "cu" ≠ "r"))
      (preset_laid c _ _ operand) fun _ hst => by cases hfits _ hst
  | ctd =>
    cases hcell
    cases hload
    exact loads_counterDown hprimary (Laid.isOn_of_side_none rfl (by decide : "cd" ≠ "ld"))
      (preset_laid c _ _ operand) fun _ hst => by cases hfits _ hst
  | add | sub | mul =>
    obtain ⟨hfirst, hsecond⟩ := sides_laid w.store c operand acc (Option.some.inj hcell).symm rfl
    cases hcell
    cases hload
    rw [← hfirst, ← hsecond]
    exact loads_ofNumber _ _ _ _
  | div =>
    obtain ⟨hfirst, hsecond⟩ := sides_laid w.store c operand acc (Option.some.inj hcell).symm rfl
    cases hcell
    cases hload
    rw [← hfirst, ← hsecond]
    exact loads_quotient _ _ _ _ _
  | gt | ge | eq | ne | le | lt =>
    obtain ⟨hfirst, hsecond⟩ := sides_laid w.store c operand acc (Option.some.inj hcell).symm rfl
    cases hcell
    cases hload
    rw [← hfirst, ← hsecond]
    exact ⟨rfl, rfl⟩
  | and | andn | or | orn =>
    cases hcell
    cases hload
    exact loads_gate w c operand acc m _ rfl (fun _ _ => rfl) rfl

end RungLogic
