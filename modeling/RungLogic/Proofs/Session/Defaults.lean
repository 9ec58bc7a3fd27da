import RungLogic.CommandLine
import RungLogic.Proofs.Session.Assignment
import RungLogic.Proofs.Session.Prompt

/-!
Sessions that are given no context. Such a session makes its own from its settings; of these it takes whether
to keep what is computed, but not the variables they define, and begins with the standard ones. So it cannot be
told from the session of the command line where the settings leave the variables alone, and wherever else
these come out as the standard ones, and it can be told wherever they do not.
-/

set_option autoImplicit false
set_option relaxedAutoImplicit false

namespace RungLogic.Session

def Conversation.withSettings (settings : SimulationSettings) (c : Conversation) : Conversation :=
  { c with session := c.session.withSettings settings }

variable {settings : SimulationSettings} {s : Session}

private theorem idle_withSettings (settings : SimulationSettings) (s : Session) (turns : Nat) :
    (s.withSettings settings).idle turns = (s.idle turns).withSettings settings := by
  induction turns generalizing s with
  | zero => rfl
  | succ turns ih =>
    rw [idle, idle, turn_withSettings, Reply.withSettings, ih]
    rfl

private theorem attend_withSettings (startable : settings.startable = s.settings.startable)
    (input : Input) :
    (s.withSettings settings).attend input = (s.attend input).withSettings settings := by
  have kept : (s.idle input.turns).session.settings = s.settings := s.settings_idle input.turns
  have executed : ((s.idle input.turns).session.withSettings settings).execute (.ofLine input.line) =
      ((s.idle input.turns).session.execute (.ofLine input.line)).withSettings settings :=
    execute_withSettings (kept ▸ startable) _
  rw [attend, attend, idle_withSettings, Reply.withSettings, executed]
  rfl

private theorem leave_withSettings (settings : SimulationSettings) (s : Session) (last : Nat)
    (failure : Option Error) :
    (s.withSettings settings).leave last failure = (s.leave last failure).withSettings settings := by
  rw [leave, leave, idle_withSettings]
  simp only [hangUp, Reply.withSettings, stopContinuous_withSettings]
  rfl

private theorem converseAmid_withSettings (startable : settings.startable = s.settings.startable)
    (last : Nat) (inputs : List Input) :
    converseAmid last (s.withSettings settings) inputs =
      (converseAmid last s inputs).withSettings settings := by
  induction inputs generalizing s with
  | nil =>
    rw [converseAmid, converseAmid, leave_withSettings]
    rfl
  | cons input rest ih =>
    have next : settings.startable = (s.attend input).session.settings.startable := by
      rw [settings_attend, startable]
    rcases h : (s.attend input).result with fault | _
    · simp only [converseAmid, attend_withSettings startable, Reply.withSettings, h, leave_withSettings]
      rfl
    · simp only [converseAmid, attend_withSettings startable, Reply.withSettings, h, leave_withSettings,
        ih next]
      split
      · rfl
      · rfl

/-- Nothing that is typed tells the two sessions apart, whenever what scans in the background has its turns:
they print the same, end for the same reason and leave the same variables. -/
def Alike (s t : Session) : Prop :=
  ∀ last inputs,
    (interactAmid last s inputs).printed = (interactAmid last t inputs).printed ∧
      (interactAmid last s inputs).failure = (interactAmid last t inputs).failure ∧
      (interactAmid last s inputs).session.store = (interactAmid last t inputs).session.store

private theorem alike_withSettings (startable : settings.startable = s.settings.startable) :
    s.Alike (s.withSettings settings) := by
  intro last inputs
  rw [interactAmid, interactAmid, converseAmid_withSettings startable]
  exact ⟨rfl, rfl, rfl⟩

private theorem Alike.store {t : Session} (alike : s.Alike t) (still : s.background = .none)
    (too : t.background = .none) : s.store = t.store := by
  have quiet {u : Session} (none : u.background = .none) : (interactAmid 0 u []).session = u := by
    show u.stopContinuous.session = u
    rw [stopContinuous, if_pos none]
  have same := (alike 0 []).2.2
  rw [quiet still, quiet too] at same
  exact same

theorem contextFor_ok_iff {clock : Clock} {context : Context} :
    CommandLine.contextFor { simulation := settings } clock = .ok context ↔
      ∃ store, Settings.store settings = .ok store ∧
        context = { plainContext settings clock with store := store } := by
  rcases h : Settings.store settings with fault | store
  · simp [CommandLine.contextFor, h, Except.map]
  · simp [CommandLine.contextFor, h, Except.map, plainContext, eq_comm]

/-- A session that is given no context behaves like the one of the command line whose settings leave the
variables alone and are the same otherwise. From the one of the same settings it differs in the variables
alone, and nothing tells the two apart exactly if those that the settings define are the standard ones. -/
theorem own_context (settings : SimulationSettings) (clock : Clock) (network : Network) (visual : Bool) :
    let own := start settings (plainContext settings clock) network visual
    let unnamed := { settings with definitions := Store.standardDefinitions }
    (∃ context, CommandLine.contextFor { simulation := unnamed } clock = .ok context ∧
      own.Alike (start unnamed context network visual)) ∧
    ∀ context, CommandLine.contextFor { simulation := settings } clock = .ok context →
      let given := start settings context network visual
      own = given.withStore Store.standard ∧ (own.Alike given ↔ given.store = Store.standard) := by
  intro own unnamed
  have alike : own.Alike (own.withSettings unnamed) := alike_withSettings rfl
  refine ⟨⟨plainContext settings clock, rfl, alike⟩, ?_⟩
  intro context made given
  obtain ⟨store, -, rfl⟩ := contextFor_ok_iff.mp made
  have same : own = given.withStore Store.standard := rfl
  refine ⟨same, ?_, ?_⟩
  · intro alike
    exact (alike.store rfl rfl).symm
  · intro standard
    rw [same, ← standard]
    exact fun _ _ => ⟨rfl, rfl, rfl⟩

/-- Settings that define a variable twice, the second time as it is defined without them. -/
theorem redefined_switch_alike :
    let settings : SimulationSettings :=
      { memoize := true
        definitions := Store.definition "X1" .bool (.bool true) :: Store.standardDefinitions }
    let given (context : Context) := start settings context Scan.lampBesideLoop true
    ∃ context, CommandLine.contextFor { simulation := settings } {} = .ok context ∧
      (given (plainContext settings {})).Alike (given context) := by
  intro settings given
  have made : CommandLine.contextFor { simulation := settings } {} = .ok (plainContext settings {}) := rfl
  exact ⟨_, made, ((own_context settings {} Scan.lampBesideLoop true).2 _ made).2.mpr rfl⟩

/-- Settings define a variable that is no standard one. The session of the command line has it and the session
without a context has not, so that it declares another of that name. -/
theorem configured_variable_ignored :
    let settings : SimulationSettings :=
      { definitions := [Store.definition "START" .bool (.bool false)] }
    let session (context : Context) :=
      start settings context { id := "m", elements := [], connections := [] } false
    ∃ context, CommandLine.contextFor { simulation := settings } {} = .ok context ∧
      ((session (plainContext settings {})).interact ["set START 1"]).printed.drop 2 =
        [.prompt, .line "START = 1", .prompt] ∧
      ((session context).interact ["set START 1"]).printed.drop 2 =
        [.prompt, .line "START = True", .prompt] ∧
      ¬ (session (plainContext settings {})).Alike (session context) := by
  intro settings session
  have made : CommandLine.contextFor { simulation := settings } {} =
      .ok { plainContext settings {} with store := [("START", .truth false)] } := rfl
  refine ⟨_, made, by decide +kernel, by decide +kernel, fun alike => ?_⟩
  have lengths := congrArg List.length (alike.store rfl rfl)
  exact absurd lengths (by decide)

end RungLogic.Session
