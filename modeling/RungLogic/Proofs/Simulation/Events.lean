import RungLogic.Proofs.Variables
import RungLogic.Simulation

/-!
Events: what happens to a simulation in the course of a run. Variables are written from outside, the
clock moves on, scans run.
-/

set_option autoImplicit false
set_option relaxedAutoImplicit false

namespace RungLogic

/-- What happens in a run. -/
inductive Event where
  /-- A variable is written from outside; a write that is refused changes nothing. -/
  | write (name value : Value)
  /-- The clock moves on. -/
  | advance (span : Number)
  /-- A scan runs. -/
  | cycle

def Simulation.after (s : Simulation) : Event → Simulation
  | .write name value => orStay s (s.write name value)
  | .advance span =>
    { s with context := { s.context with
        clock := orStay s.context.clock (s.context.clock.advance span) } }
  | .cycle => s.cycle.state

theorem Simulation.after_write (s : Simulation) (name value : Value) :
    s.after (.write name value) = { s with context := { s.context with
      store := orStay s.context.store (s.context.store.write name value) } } := by
  rcases h : s.context.store.write name value with fault | store
  · simp only [after, write, h]
    rfl
  · simp only [after, write, h]
    rfl

/-- The clock after an event; a scan takes a reading of it. -/
def Clock.after (c : Clock) : Event → Clock
  | .write _ _ => c
  | .advance span => orStay c (c.advance span)
  | .cycle => orStay c (c.read.map Prod.snd)

theorem Simulation.clock_after (s : Simulation) (event : Event) :
    (s.after event).context.clock = s.context.clock.after event := by
  cases event with
  | write name value => rw [after_write, Clock.after]
  | advance span => rfl
  | cycle =>
    rcases hread : s.context.clock.read with fault | ⟨now, clock⟩
    · simp only [after, cycle, Clock.after, hread]
      rfl
    · simp only [after, cycle, Clock.after, hread]
      rfl

/-- Every reading that the scans of a run take of the clock is an integer. -/
def Clock.ReadsIntegers : Clock → List Event → Prop
  | _, [] => True
  | c, event :: rest =>
    (event = .cycle → ∀ now next, c.read = .ok (now, next) → ∃ i, now = .int i) ∧
      (c.after event).ReadsIntegers rest

theorem Clock.readsIntegers_of_int {events : List Event}
    (h : ∀ span, Event.advance span ∈ events → ∃ k, span = .int k) (a b : Int) :
    ReadsIntegers ⟨.int a, .int b⟩ events := by
  induction events generalizing a with
  | nil => trivial
  | cons event rest ih =>
    have hread : read ⟨.int a, .int b⟩ = .ok (.int a, ⟨.int (a + b), .int b⟩) := rfl
    have tail := ih fun span hspan => h span (List.mem_cons_of_mem _ hspan)
    refine ⟨fun _ now next hnow => ?_, ?_⟩
    · rw [hread] at hnow
      cases hnow
      exact ⟨a, rfl⟩
    · cases event with
      | write name value => exact tail a
      | advance span =>
        obtain ⟨k, rfl⟩ := h span List.mem_cons_self
        exact tail (a + k)
      | cycle => exact tail (a + b)

theorem Store.value?_write (s : Store) (name value : Value) (other : String) :
    (orStay s (s.write name value)).value? other =
      if name.text? = some other then overwritten other value (s.value? other)
      else s.value? other := by
  cases name with
  | text word =>
    simp only [Value.text?, Option.some.injEq]
    rcases s.write_text word value with ⟨c, hwrite, hc⟩ | ⟨⟨fault, hwrite⟩, hc⟩
    · rw [hwrite, orStay, Table.value?_put]
      split
      · rename_i same
        rw [← same, hc]
      · rfl
    · rw [hwrite, orStay]
      split
      · rename_i same
        rw [← same, hc]
      · rfl
  | _ => rfl

/-- A store after a coil has written a variable; a write that is refused changes nothing. -/
def Store.afterCoil (s : Store) (target : String) (b : Bool) : Store :=
  orStay s (s.write (.text target) (.bool b))

theorem Store.value?_afterCoil (s : Store) (target : String) (b : Bool) (name : String) :
    (s.afterCoil target b).value? name =
      if target = name then overwritten name (.bool b) (s.value? name) else s.value? name := by
  have h := s.value?_write (.text target) (.bool b) name
  simp only [Value.text?, Option.some.injEq] at h
  exact h

namespace Scan

theorem store_writeCoil (e : Element) (target : String) (b : Bool) (p : Progress) :
    (writeCoil e target b p).store = p.store.afterCoil target b := by
  rcases h : p.store.write (.text target) (.bool b) with fault | store
  · simp only [writeCoil, h, Store.afterCoil, orStay]
  · simp only [writeCoil, h, Store.afterCoil, orStay]

theorem states_writeCoil (e : Element) (target : String) (b : Bool) (p : Progress) :
    (writeCoil e target b p).memory.states = p.memory.states := by
  unfold writeCoil
  split <;> rfl

theorem kept_writeCoil (e : Element) (target : String) (b : Bool) (p : Progress) :
    (writeCoil e target b p).memory.kept = p.memory.kept := by
  unfold writeCoil
  split <;> rfl

end Scan

end RungLogic
