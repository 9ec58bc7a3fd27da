import RungLogic.Proofs.Scan.Recursion
import RungLogic.Proofs.Simulation.Events
import RungLogic.Session

/-!
Reloading. Of its settings a session uses the intervals alone, and what shows of it tells no more of
these than whether a runner can be started with them. Everything else that shows comes from the
simulation and from the flags; a simulation that goes on with another network has kept the variables
and the clock, and nothing of what it has scanned before.
-/

set_option autoImplicit false
set_option relaxedAutoImplicit false

namespace RungLogic

/-- Whether a runner can be started with the intervals. -/
def SimulationSettings.startable (s : SimulationSettings) : Bool :=
  (Runner.seconds? s.scanInterval).isSome && (Runner.seconds? s.pollInterval).isSome

namespace Session

/-- What is asked of a session, at the prompt or past it. -/
inductive Call where
  | line (text : String)
  /-- What scans in the background has its turn. -/
  | tick
  | cycle
  | evaluate (id : String)
  | write (name value : Value)
  | advance (span : Number)
  | load (network : Network)

/-- What shows of a session: its variables, its states and the recorded outputs. -/
structure View where
  store : Store
  states : Table ElementState
  recorded : Table Signal

/-- What shows of a call: how it ends and what it tells, the signal of an evaluation, and the session
after it. -/
structure Seen where
  result : Except Error Unit
  signal : Option Signal
  lines : List String
  notices : List Notice
  view : View

def view (s : Session) : View :=
  let context := s.simulation.context
  ⟨context.store, context.states, context.recorded⟩

/-- The reply to a call past the prompt, which tells no lines. -/
def replyTo {α : Type} (s : Session) (o : Outcome Simulation α) : Reply :=
  { result := o.result.map fun _ => (), session := { s with simulation := o.state }
    notices := o.notices }

/-- The reply to a call, and the signal that an evaluation gives. -/
def serve (s : Session) : Call → Reply × Option Signal
  | .line text => (s.execute (.ofLine text), none)
  | .tick => (s.turn, none)
  | .cycle => (s.replyTo s.simulation.cycle, none)
  | .evaluate id =>
    let o := s.simulation.evaluate id
    (s.replyTo o, o.result.toOption)
  | .write name value =>
    (s.replyTo ⟨s.simulation.write name value, s.simulation.after (.write name value), []⟩, none)
  | .advance span =>
    (s.replyTo ⟨s.simulation.context.clock.advance span, s.simulation.after (.advance span), []⟩, none)
  | .load network => ({ session := s.load network }, none)

/-- The session after some calls; a call that fails does not end it. -/
def after (s : Session) (calls : List Call) : Session :=
  calls.foldl (fun s call => (s.serve call).1.session) s

/-- What shows of some calls. -/
def observe (s : Session) : List Call → List Seen
  | [] => []
  | call :: rest =>
    let (r, signal) := s.serve call
    ⟨r.result, signal, r.lines, r.notices, r.session.view⟩ :: r.session.observe rest

def withSettings (settings : SimulationSettings) (s : Session) : Session :=
  { s with settings := settings }

end Session

def Reply.withSettings (settings : SimulationSettings) (r : Reply) : Reply :=
  { r with session := r.session.withSettings settings }

namespace Session

variable {settings : SimulationSettings} {s : Session}

private theorem scan_withSettings (settings : SimulationSettings) (s : Session) :
    (s.withSettings settings).scan = s.scan.withSettings settings := by
  have same : (s.withSettings settings).simulation = s.simulation := rfl
  rcases h : s.simulation.cycle.result with fault | _
  · simp only [scan, same, h]
    rfl
  · simp only [scan, same, h]
    rfl

private theorem tick_withSettings (settings : SimulationSettings) (s : Session) :
    (s.withSettings settings).tick = s.tick.withSettings settings := by
  have same : (s.withSettings settings).isContinuous = s.isContinuous := rfl
  rcases h : s.isContinuous with _ | _
  · simp only [tick, same, h]
    rfl
  · simp only [tick, same, h, if_true, scan_withSettings]

theorem turn_withSettings (settings : SimulationSettings) (s : Session) :
    (s.withSettings settings).turn = s.turn.withSettings settings := by
  rcases h : s.tick.result with fault | _
  · simp only [turn, tick_withSettings, Reply.withSettings, h]
    rfl
  · simp only [turn, tick_withSettings, Reply.withSettings, h]

theorem stopContinuous_withSettings (settings : SimulationSettings) (s : Session) :
    (s.withSettings settings).stopContinuous = s.stopContinuous.withSettings settings := by
  rcases s with ⟨_, _, _, _ | _ | _⟩ <;> rfl

theorem startContinuous_eq (s : Session) :
    s.startContinuous =
      if s.isContinuous then { session := s }
      else if s.settings.startable then
        { session := { s with background := .scanning }
          lines := ["▶️  Continuous simulation started"] }
      else { result := .error .tooLarge, session := s } := by
  rcases hscan : Runner.seconds? s.settings.scanInterval with _ | scan
  · simp [startContinuous, SimulationSettings.startable, hscan]
  · rcases hpoll : Runner.seconds? s.settings.pollInterval with _ | poll
    · simp [startContinuous, SimulationSettings.startable, hscan, hpoll]
    · simp [startContinuous, SimulationSettings.startable, hscan, hpoll]

private theorem startContinuous_withSettings (startable : settings.startable = s.settings.startable) :
    (s.withSettings settings).startContinuous = s.startContinuous.withSettings settings := by
  have continuous : (s.withSettings settings).isContinuous = s.isContinuous := rfl
  have same : (s.withSettings settings).settings.startable = s.settings.startable := startable
  rw [startContinuous_eq, startContinuous_eq, continuous, same]
  split
  · rfl
  · split <;> rfl

private theorem assign_withSettings (settings : SimulationSettings) (s : Session) (name : String)
    (v : Value) :
    (s.withSettings settings).assign name v = (s.assign name v).withSettings settings := by
  have same : (s.withSettings settings).simulation = s.simulation := rfl
  rcases h : s.simulation.write (.text name) v with fault | simulation
  · simp only [assign, same, h]
    rfl
  · simp only [assign, same, h]
    rfl

private theorem setVariable_withSettings (settings : SimulationSettings) (s : Session) (name : String)
    (words : List String) :
    (s.withSettings settings).setVariable name words =
      (s.setVariable name words).withSettings settings := by
  have same : (s.withSettings settings).store = s.store := rfl
  simp only [setVariable, same]
  split
  · split
    · exact assign_withSettings settings s name _
    · exact assign_withSettings settings s name _
    · rfl
  · split
    · rfl
    · exact assign_withSettings settings s name _

theorem execute_withSettings (startable : settings.startable = s.settings.startable)
    (command : Command) :
    (s.withSettings settings).execute command = (s.execute command).withSettings settings := by
  cases command with
  | scan => exact scan_withSettings settings s
  | exit => exact stopContinuous_withSettings settings s
  | continuous =>
    have same : (s.withSettings settings).isContinuous = s.isContinuous := rfl
    simp only [execute, same]
    split
    · exact stopContinuous_withSettings settings s
    · exact startContinuous_withSettings startable
  | visual => rfl
  | set arguments =>
    cases arguments with
    | nil => rfl
    | cons name words => exact setVariable_withSettings settings s name words
  | help => rfl
  | unknown word => rfl

/-- A session with other settings replies to each call as the session itself, as long as a runner can
be started with both or with neither. -/
private theorem serve_withSettings (startable : settings.startable = s.settings.startable) (call : Call) :
    (s.withSettings settings).serve call =
      ((s.serve call).1.withSettings settings, (s.serve call).2) := by
  cases call with
  | line text => exact congrArg (·, none) (execute_withSettings startable (.ofLine text))
  | tick => exact congrArg (·, none) (turn_withSettings settings s)
  | _ => rfl

theorem settings_serve (s : Session) (call : Call) :
    (s.serve call).1.session.settings = s.settings := by
  have same : s.serve call = ((s.serve call).1.withSettings s.settings, (s.serve call).2) :=
    serve_withSettings (s := s) rfl call
  rw [same]
  rfl

private theorem settings_after (s : Session) (calls : List Call) :
    (s.after calls).settings = s.settings := by
  induction calls generalizing s with
  | nil => rfl
  | cons call rest ih => exact (ih (s.serve call).1.session).trans (settings_serve s call)

private theorem observe_withSettings (startable : settings.startable = s.settings.startable)
    (calls : List Call) : (s.withSettings settings).observe calls = s.observe calls := by
  induction calls generalizing s with
  | nil => rfl
  | cons call rest ih =>
    have next : settings.startable = (s.serve call).1.session.settings.startable := by
      rw [settings_serve, startable]
    rw [observe, observe, serve_withSettings startable]
    exact congrArg _ (ih next)

/-- A session without a runner that loads a network is a new session, up to its settings. -/
private theorem load_eq_start {fresh : Context} (stopped : s.background = .none)
    (store : fresh.store = s.store) (clock : fresh.clock = s.simulation.context.clock)
    (memoize : fresh.memoize = s.simulation.context.memoize) (settings : SimulationSettings)
    (network : Network) :
    s.load network = (start settings fresh network s.visual).withSettings s.settings := by
  obtain ⟨_, ⟨⟨_, _, _, _, _⟩, _⟩, _, _⟩ := s
  obtain ⟨_, _, _, _, _⟩ := fresh
  cases stopped
  cases store
  cases clock
  cases memoize
  rfl

/-- Loading a network forgets everything but the variables. Whatever has been asked of a session before,
once nothing scans in the background it shows after a load what a new session shows that is given the
same variables, clock and flags, and whatever is asked of both from then on they answer in the same
way. Their settings may differ in the intervals, when a runner can be started with both or with
neither. -/
theorem load_forgets (settings settings' : SimulationSettings)
    (startable : settings'.startable = settings.startable) (context fresh : Context)
    (network next : Network) (visual : Bool) (history calls : List Call) :
    let s := (start settings context network visual).after history
    s.background = .none → fresh.store = s.store → fresh.clock = s.simulation.context.clock →
      fresh.memoize = s.simulation.context.memoize →
      let new := start settings' fresh next s.visual
      (s.load next).view = new.view ∧ (s.load next).observe calls = new.observe calls := by
  intro s stopped store clock memoize new
  have loaded : s.load next = new.withSettings s.settings :=
    load_eq_start stopped store clock memoize settings' next
  have kept : s.settings = settings := settings_after _ history
  have same : s.settings.startable = new.settings.startable := by
    rw [kept]
    exact startable.symm
  rw [loaded, observe_withSettings same]
  exact ⟨rfl, rfl⟩

/-- Each scan of the first network reports a cycle, also the one in the background, which ends the runner,
and leaves a timer that runs. The next line starts another runner, and the one after it stops that. The next
network has a counter of the same id. -/
theorem timer_is_forgotten :
    let history : List Call :=
      [.line "set X1 true", .line "", .line "continuous", .tick, .line "continuous", .line "continuous"]
    let next : Network :=
      { id := "m"
        elements :=
          [⟨"switch", .contact, {}, [("variable", .text "X1")]⟩,
            ⟨"delay", .counterUp, {}, [("preset", .num (.int 1))]⟩,
            ⟨"lamp", .coil, {}, [("variable", .text "Y1")]⟩]
        connections := [⟨⟨"switch", "out"⟩, ⟨"delay", "cu"⟩⟩, ⟨⟨"delay", "q"⟩, ⟨"lamp", "in"⟩⟩] }
    let calls : List Call := [.line "visual", .line "", .evaluate "delay"]
    let s := (start {} { store := [] } Scan.lampBesideLoop false).after history
    let fresh : Context := { s.simulation.context with states := [], recorded := [] }
    let new := start {} fresh next s.visual
    s.background = .none ∧ (s.view.states.value? "delay").isSome = true ∧
      fresh.store = s.store ∧ fresh.clock = s.simulation.context.clock ∧
      fresh.memoize = s.simulation.context.memoize ∧
      (s.load next).view = new.view ∧ (s.load next).observe calls = new.observe calls ∧
      (new.observe calls).map Seen.lines =
        [["Visualization on",
            "  contact X1                   -",
            "  counter_up 1                 -",
            "  coil Y1                      -"],
          ["Variables: X1=True, Y1=True",
            "  contact X1                   ON",
            "  counter_up 1                 ON",
            "  coil Y1                      ON"],
          []] := by
  intro history next calls s fresh new
  have stopped : s.background = .none := by decide +kernel
  obtain ⟨view, answers⟩ := load_forgets {} {} rfl { store := [] } fresh Scan.lampBesideLoop next
    false history calls stopped rfl rfl rfl
  exact ⟨stopped, by decide +kernel, rfl, rfl, rfl, view, answers, by decide +kernel⟩

end Session

end RungLogic
