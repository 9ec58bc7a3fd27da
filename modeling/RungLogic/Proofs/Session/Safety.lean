import RungLogic.Proofs.Session.Prompt
import RungLogic.Proofs.Simulation.Safety

/-!
Sessions that nothing surprising can stop. Over a valid network, with valid variables, consistent states
and a clock that can be read, a scan fails with a cycle or not at all; and no command, nor what scans in the
background between two commands, takes any of this away. So a line fails with a cycle, because it tells an
integer of too many digits, or because it asks for a runner whose intervals no real holds.
-/

set_option autoImplicit false
set_option relaxedAutoImplicit false

namespace RungLogic

/-- The clock has a reading. -/
def Clock.Readable (c : Clock) : Prop := ∃ now later, c.read = .ok (now, later)

/-- A step that can be added once can be added again: what comes out is a real, or all are integers. -/
private theorem Number.add?_again {a b c : Number} (sum : a.add? b = some c) : ∃ d, c.add? b = some d := by
  cases a with
  | int i =>
    cases b with
    | int j =>
      cases sum
      exact ⟨_, rfl⟩
    | real y =>
      have sum : (toReal? (.int i)).bind (fun x => some (.real (x + y))) = some c := sum
      obtain ⟨x, -, same⟩ := Option.bind_eq_some_iff.mp sum
      cases same
      exact ⟨_, rfl⟩
  | real x =>
    cases b with
    | int j =>
      have sum : (toReal? (.int j)).bind (fun y => some (.real (x + y))) = some c := sum
      obtain ⟨y, fits, same⟩ := Option.bind_eq_some_iff.mp sum
      cases same
      refine ⟨.real (x + y + y), ?_⟩
      show (toReal? (.int j)).bind _ = _
      rw [fits]
      rfl
    | real y =>
      cases sum
      exact ⟨_, rfl⟩

private theorem Clock.Readable.next {c later : Clock} {now : Number} (read : c.read = .ok (now, later)) :
    later.Readable := by
  rcases sum : c.now.add? c.step with _ | next
  · simp [Clock.read, advance, sum, Except.map] at read
  · obtain ⟨third, again⟩ := Number.add?_again sum
    simp only [Clock.read, advance, sum, Except.map] at read
    cases read
    exact ⟨next, { now := third, step := c.step }, by simp [Clock.read, advance, again, Except.map]⟩

theorem Simulation.Intact.scans {n : Network} {s : Simulation} (h : Intact n s) (coherent : n.Coherent)
    (readable : s.context.clock.Readable) :
    s.cycle.result = .ok () ∨ ∃ path, s.cycle.result = .error (.cycle path) := by
  obtain ⟨now, later, read⟩ := readable
  exact (h.cycle coherent).2 now later read

namespace Session

/-- A session that nothing but a cycle or a start of the runner can stop. -/
structure Safe (n : Network) (s : Session) : Prop where
  intact : Simulation.Intact n s.simulation
  clock : s.simulation.context.clock.Readable
  /-- What cannot be started does not scan. -/
  idle : s.settings.startable = false → s.isContinuous = false

variable {n : Network} {s : Session}

namespace Safe

/-- What happens to the simulation of a session leaves it safe, as long as the clock is not moved. -/
private theorem after (h : Safe n s) (coherent : n.Coherent) {event : Event}
    (still : ∀ span, event ≠ .advance span) :
    Safe n { s with simulation := s.simulation.after event } := by
  refine ⟨h.intact.after coherent event, ?_, h.idle⟩
  show (s.simulation.after event).context.clock.Readable
  rw [Simulation.clock_after]
  cases event with
  | write name value => exact h.clock
  | advance span => exact (still span rfl).elim
  | cycle =>
    obtain ⟨now, later, read⟩ := h.clock
    rw [Clock.after, read]
    exact Clock.Readable.next read

private theorem stopped (h : Safe n s) : Safe n { s with background := .none } :=
  ⟨h.intact, h.clock, fun _ => rfl⟩

private theorem scan (h : Safe n s) (coherent : n.Coherent) : Safe n s.scan.session := by
  have session : s.scan.session = { s with simulation := s.simulation.after .cycle } := by
    unfold Session.scan
    dsimp only
    split <;> rfl
  rw [session]
  exact h.after coherent fun _ same => by cases same

private theorem assign (h : Safe n s) (coherent : n.Coherent) (name : String) (v : Value) :
    Safe n (s.assign name v).session := by
  have session : (s.assign name v).session =
      { s with simulation := s.simulation.after (.write (.text name) v) } := by
    rcases written : s.simulation.write (.text name) v with fault | simulation
    · simp only [Session.assign, written, Simulation.after, orStay]
      rfl
    · simp only [Session.assign, written, Simulation.after, orStay]
      rfl
  rw [session]
  exact h.after coherent fun _ same => by cases same

private theorem stopContinuous (h : Safe n s) : Safe n s.stopContinuous.session := by
  unfold Session.stopContinuous
  split
  · exact h
  · exact h.stopped

private theorem startContinuous (h : Safe n s) : Safe n s.startContinuous.session := by
  rw [startContinuous_eq]
  split
  · exact h
  · split
    · rename_i startable
      refine ⟨h.intact, h.clock, fun unfit => ?_⟩
      cases startable.symm.trans unfit
    · exact h

private theorem setVariable (h : Safe n s) (coherent : n.Coherent) (name : String) (words : List String) :
    Safe n (s.setVariable name words).session := by
  unfold Session.setVariable
  dsimp only
  split
  · split
    · exact h.assign coherent name _
    · exact h.assign coherent name _
    · exact h
  · split
    · exact h
    · exact h.assign coherent name _

private theorem execute (h : Safe n s) (coherent : n.Coherent) (command : Command) :
    Safe n (s.execute command).session := by
  cases command with
  | scan => exact h.scan coherent
  | exit => exact h.stopContinuous
  | continuous =>
    rw [Session.execute]
    split
    · exact h.stopContinuous
    · exact h.startContinuous
  | visual => exact ⟨h.intact, h.clock, h.idle⟩
  | set arguments =>
    cases arguments with
    | nil => exact h
    | cons name words => exact h.setVariable coherent name words
  | help => exact h
  | unknown word => exact h

private theorem turn (h : Safe n s) (coherent : n.Coherent) : Safe n s.turn.session := by
  have ticked : Safe n s.tick.session := by
    unfold tick
    split
    · exact h.scan coherent
    · exact h
  unfold Session.turn
  dsimp only
  split
  · exact ticked
  · exact ⟨ticked.intact, ticked.clock, fun _ => rfl⟩

private theorem turns (h : Safe n s) (coherent : n.Coherent) (turns : Nat) :
    Safe n (s.idle turns).session := by
  induction turns generalizing s with
  | zero => exact h
  | succ turns ih => exact ih (h.turn coherent)

private theorem attend (h : Safe n s) (coherent : n.Coherent) (input : Input) :
    Safe n (s.attend input).session :=
  (h.turns coherent input.turns).execute coherent _

private theorem attended (h : Safe n s) (coherent : n.Coherent) (inputs : List Input) :
    Safe n (s.attended inputs) := by
  induction inputs generalizing s with
  | nil => exact h
  | cons input rest ih => exact ih (h.attend coherent input)

end Safe

end Session

end RungLogic
