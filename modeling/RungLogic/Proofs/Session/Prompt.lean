import RungLogic.Proofs.Session.Failures

/-!
The prompt loop. It executes line after line, up to the first that asks to exit or fails, or to the last;
what comes after that has no effect. Between two lines what scans in the background has its turns; it may
fail there, which ends it and nothing else. However the loop ends, nothing scans in the background after it.
-/

set_option autoImplicit false
set_option relaxedAutoImplicit false

namespace RungLogic

/-- One reply after another: what both tell, and the result and the session of the second. -/
def Reply.andThen (r next : Reply) : Reply :=
  { next with lines := r.lines ++ next.lines, notices := r.notices ++ next.notices }

namespace Session

/-- What comes at the prompt: the turns of what scans in the background while the prompt waits, and then a
line. -/
structure Input where
  turns : Nat := 0
  line : String

def idle (s : Session) : Nat → Reply
  | 0 => { session := s }
  | turns + 1 => s.turn.andThen (s.turn.session.idle turns)

/-- The turns that come before a line, and the command of the line. -/
def attend (s : Session) (input : Input) : Reply :=
  let waited := s.idle input.turns
  waited.andThen (waited.session.execute (.ofLine input.line))

/-- The end of a conversation, with the turns that come before it. -/
def leave (s : Session) (last : Nat) (failure : Option Error) : Conversation :=
  let waited := s.idle last
  let c := waited.session.hangUp failure
  { c with printed := waited.lines.map .line ++ c.printed, notices := waited.notices ++ c.notices }

/-- The prompt loop amid the turns of what scans in the background, with `last` turns at its end. -/
def converseAmid (last : Nat) (s : Session) : List Input → Conversation
  | [] => (s.leave last none).after [] []
  | input :: rest =>
    let r := s.attend input
    match r.result with
    | .error fault => (r.session.leave last (some fault)).after r.lines r.notices
    | .ok () =>
      if Command.ofLine input.line = .exit then (r.session.leave last none).after r.lines r.notices
      else (converseAmid last r.session rest).after r.lines r.notices

def greet (s : Session) (c : Conversation) : Conversation :=
  { c with printed := s.greeting.map .line ++ c.printed }

def interactAmid (last : Nat) (s : Session) (inputs : List Input) : Conversation :=
  s.greet (converseAmid last s inputs)

theorem converseAmid_quiet (s : Session) (lines : List String) :
    converseAmid 0 s (lines.map fun line => { line := line }) = s.converse lines := by
  have leave_quiet (s : Session) (failure : Option Error) : s.leave 0 failure = s.hangUp failure := rfl
  have attend_quiet (s : Session) (line : String) :
      s.attend { line := line } = s.execute (.ofLine line) := rfl
  induction lines generalizing s with
  | nil => rfl
  | cons line rest ih =>
    rcases result : (s.execute (.ofLine line)).result with fault | _
    · simp only [List.map_cons, converseAmid, converse, leave_quiet, attend_quiet, result]
    · simp only [List.map_cons, converseAmid, converse, leave_quiet, attend_quiet, result, ih]

/-- The first word of a line is the word to exit, in any case of its letters. -/
def AsksExit (line : String) : Prop :=
  ∃ word rest, Text.words line = word :: rest ∧ Text.lowerASCII word = "exit"

private theorem ofLine_exit_iff (line : String) : Command.ofLine line = .exit ↔ AsksExit line := by
  constructor
  · intro exit
    unfold Command.ofLine at exit
    split at exit
    · cases exit
    · rename_i word rest words
      split at exit
      · rename_i asks
        exact ⟨word, rest, words, asks⟩
      all_goals cases exit
  · rintro ⟨word, rest, words, asks⟩
    rw [Command.ofLine, words]
    simp only [asks]

/-- Why the loop stops. -/
inductive Stop where
  | exit
  | failed (fault : Error)
  | endOfInput

def Stop.failure : Stop → Option Error
  | .failed fault => some fault
  | _ => none

/-- How often the loop asks for a line and there is none. -/
def Stop.unanswered : Stop → Nat
  | .endOfInput => 1
  | _ => 0

/-- The session after inputs that are executed one after the other. -/
def attended (s : Session) (inputs : List Input) : Session :=
  inputs.foldl (fun s input => (s.attend input).session) s

/-- Inputs that are executed one after the other, each with the session that it meets. -/
def steps (s : Session) : List Input → List (Session × Input)
  | [] => []
  | input :: rest => (s, input) :: (s.attend input).session.steps rest

/-- Inputs that neither fail nor ask to exit when they are executed one after the other. -/
def AllPass (s : Session) (inputs : List Input) : Prop :=
  ∀ step ∈ s.steps inputs, (step.1.attend step.2).result = .ok () ∧ ¬ AsksExit step.2.line

/-- `Stops s inputs ran stop` says that of the inputs `ran` are executed, up to the first that asks to exit
or fails, or all when there is none. -/
inductive Stops (s : Session) (inputs : List Input) : List Input → Stop → Prop
  | exit {before rest : List Input} {input : Input} : inputs = before ++ input :: rest →
      AllPass s before → ((s.attended before).attend input).result = .ok () → AsksExit input.line →
      Stops s inputs (before ++ [input]) .exit
  | failed {before rest : List Input} {input : Input} {fault : Error} :
      inputs = before ++ input :: rest → AllPass s before →
      ((s.attended before).attend input).result = .error fault →
      Stops s inputs (before ++ [input]) (.failed fault)
  | endOfInput : AllPass s inputs → Stops s inputs inputs .endOfInput

/-- What the end of the loop adds; at the end of the input it has asked for a line once more. -/
def close (s : Session) (last : Nat) : Stop → Conversation
  | .endOfInput => (s.leave last none).after [] []
  | stop => s.leave last stop.failure

/-- What inputs tell that are executed one after the other, each after a prompt, and then what comes after
them. -/
def recount (s : Session) (c : Conversation) : List Input → Conversation
  | [] => c
  | input :: rest =>
    ((s.attend input).session.recount c rest).after (s.attend input).lines (s.attend input).notices

private theorem allPass_cons {s : Session} {input : Input} {rest : List Input} :
    AllPass s (input :: rest) ↔
      ((s.attend input).result = .ok () ∧ ¬ AsksExit input.line) ∧
        AllPass (s.attend input).session rest := by
  simp only [AllPass, steps, List.forall_mem_cons]

private theorem steps_append (s : Session) (before rest : List Input) :
    s.steps (before ++ rest) = s.steps before ++ (s.attended before).steps rest := by
  induction before generalizing s with
  | nil => rfl
  | cons input before ih => exact congrArg ((s, input) :: ·) (ih (s.attend input).session)

private theorem recount_append (s : Session) (c : Conversation) (before rest : List Input) :
    s.recount c (before ++ rest) = s.recount ((s.attended before).recount c rest) before := by
  induction before generalizing s with
  | nil => rfl
  | cons input before ih => exact congrArg (Conversation.after _ _) (ih (s.attend input).session)

private theorem converseAmid_cons_of_pass {s : Session} {input : Input}
    (ok : (s.attend input).result = .ok ()) (stays : ¬ AsksExit input.line) (last : Nat)
    (rest : List Input) :
    converseAmid last s (input :: rest) =
      (converseAmid last (s.attend input).session rest).after (s.attend input).lines
        (s.attend input).notices := by
  rw [← ofLine_exit_iff] at stays
  simp only [converseAmid, ok, if_neg stays]

private theorem converseAmid_of_allPass {s : Session} {before : List Input} (pass : AllPass s before)
    (last : Nat) (rest : List Input) :
    converseAmid last s (before ++ rest) =
      s.recount (converseAmid last (s.attended before) rest) before := by
  induction before generalizing s with
  | nil => rfl
  | cons input before ih =>
    obtain ⟨⟨ok, stays⟩, pass⟩ := allPass_cons.mp pass
    rw [List.cons_append, converseAmid_cons_of_pass ok stays, ih pass]
    rfl

/-- Where the loop stops decides all that it tells and leaves. -/
theorem Stops.converseAmid_eq {s : Session} {inputs ran : List Input} {stop : Stop}
    (stops : Stops s inputs ran stop) (last : Nat) :
    converseAmid last s inputs = s.recount ((s.attended ran).close last stop) ran := by
  have after (before : List Input) (input : Input) :
      s.attended (before ++ [input]) = ((s.attended before).attend input).session := by
    rw [attended, List.foldl_append]
    rfl
  cases stops with
  | @exit before rest input split pass ok asks =>
    have exit := (ofLine_exit_iff input.line).mpr asks
    rw [split, converseAmid_of_allPass pass, recount_append, after, converseAmid]
    simp only [ok, exit, if_true]
    rfl
  | @failed before rest input fault split pass failed =>
    rw [split, converseAmid_of_allPass pass, recount_append, after, converseAmid]
    simp only [failed]
    rfl
  | endOfInput pass =>
    have all := converseAmid_of_allPass pass last []
    rw [List.append_nil] at all
    exact all

private theorem Stops.cons {s : Session} {input : Input} {rest ran : List Input} {stop : Stop}
    (ok : (s.attend input).result = .ok ()) (stays : ¬ AsksExit input.line)
    (stops : Stops (s.attend input).session rest ran stop) :
    Stops s (input :: rest) (input :: ran) stop := by
  have pass {before : List Input} (pass : AllPass (s.attend input).session before) :
      AllPass s (input :: before) := allPass_cons.mpr ⟨⟨ok, stays⟩, pass⟩
  cases stops with
  | exit split before ok asks =>
    rw [← List.cons_append]
    exact .exit (congrArg (input :: ·) split) (pass before) ok asks
  | failed split before failed =>
    rw [← List.cons_append]
    exact .failed (congrArg (input :: ·) split) (pass before) failed
  | endOfInput all => exact .endOfInput (pass all)

/-- The loop stops, whatever is typed. -/
theorem exists_stops (s : Session) (inputs : List Input) : ∃ ran stop, Stops s inputs ran stop := by
  induction inputs generalizing s with
  | nil => exact ⟨[], .endOfInput, .endOfInput fun step none => (by cases none)⟩
  | cons input rest ih =>
    have start : AllPass s [] := fun step none => (by cases none)
    rcases result : (s.attend input).result with fault | _
    · exact ⟨[] ++ [input], .failed fault, .failed rfl start result⟩
    · by_cases asks : AsksExit input.line
      · exact ⟨[] ++ [input], .exit, .exit rfl start result asks⟩
      · obtain ⟨ran, stop, stops⟩ := ih (s.attend input).session
        exact ⟨input :: ran, stop, stops.cons result asks⟩

private theorem Stops.others {s : Session} {inputs ran : List Input} {stop : Stop}
    (stops : Stops s inputs ran stop) (early : stop.unanswered = 0) (others : List Input) :
    Stops s (ran ++ others) ran stop := by
  cases stops with
  | exit _ pass ok asks => exact .exit (List.append_assoc ..) pass ok asks
  | failed _ pass failed => exact .failed (List.append_assoc ..) pass failed
  | endOfInput => cases early

theorem failure_recount (s : Session) (c : Conversation) (ran : List Input) :
    (s.recount c ran).failure = c.failure := by
  induction ran generalizing s with
  | nil => rfl
  | cons input ran ih => exact ih (s.attend input).session

private theorem session_recount (s : Session) (c : Conversation) (ran : List Input) :
    (s.recount c ran).session = c.session := by
  induction ran generalizing s with
  | nil => rfl
  | cons input ran ih => exact ih (s.attend input).session

theorem failure_close (s : Session) (last : Nat) (stop : Stop) :
    (s.close last stop).failure = stop.failure := by
  cases stop <;> rfl

private theorem background_stopContinuous (s : Session) : s.stopContinuous.session.background = .none := by
  unfold stopContinuous
  split
  · assumption
  · rfl

private theorem background_close (s : Session) (last : Nat) (stop : Stop) :
    (s.close last stop).session.background = .none := by
  cases stop <;> exact background_stopContinuous (s.idle last).session

private theorem count_lines (lines : List String) : (lines.map Printed.line).count .prompt = 0 := by
  simp [List.count_eq_zero]

private theorem count_after (lines : List String) (notices : List Notice) (c : Conversation) :
    (c.after lines notices).printed.count .prompt = c.printed.count .prompt + 1 := by
  simp [Conversation.after, count_lines]

private theorem count_recount (s : Session) (c : Conversation) (ran : List Input) :
    (s.recount c ran).printed.count .prompt = ran.length + c.printed.count .prompt := by
  induction ran generalizing s with
  | nil => simp [recount]
  | cons input ran ih =>
    rw [recount, count_after, ih, List.length_cons]
    omega

private theorem count_close (s : Session) (last : Nat) (stop : Stop) :
    (s.close last stop).printed.count .prompt = stop.unanswered := by
  have left (failure : Option Error) : (s.leave last failure).printed.count .prompt = 0 := by
    simp [leave, hangUp, count_lines]
  cases stop with
  | endOfInput => rw [close, count_after, left, Stop.unanswered]
  | exit => exact left none
  | failed fault => exact left (some fault)

/-- Of the inputs that are executed the last one alone may fail; it fails as its command does. -/
private theorem Stops.failure_iff {s : Session} {inputs ran : List Input} {stop : Stop}
    (stops : Stops s inputs ran stop) (fault : Error) :
    stop.failure = some fault ↔ ∃ step ∈ s.steps ran,
      Raises (step.1.idle step.2.turns).session (.ofLine step.2.line) fault := by
  have raised (step : Session × Input) :
      Raises (step.1.idle step.2.turns).session (.ofLine step.2.line) fault ↔
        (step.1.attend step.2).result = .error fault :=
    (execute_error_iff _ _ fault).symm
  have passed {before : List Input} (pass : AllPass s before) :
      ¬ ∃ step ∈ s.steps before, (step.1.attend step.2).result = .error fault := by
    rintro ⟨step, executed, failed⟩
    cases (pass step executed).1.symm.trans failed
  have last (before : List Input) (input : Input) (pass : AllPass s before) :
      (∃ step ∈ s.steps (before ++ [input]), (step.1.attend step.2).result = .error fault) ↔
        ((s.attended before).attend input).result = .error fault := by
    simp only [steps_append, steps, List.mem_append, or_and_right, exists_or, passed pass, false_or,
      List.mem_singleton, exists_eq_left]
  simp only [raised]
  cases stops with
  | exit _ pass ok => simp [last _ _ pass, ok, Stop.failure]
  | failed _ pass failed => simp [last _ _ pass, failed, Stop.failure]
  | endOfInput all => simpa [Stop.failure] using passed all

theorem settings_idle (s : Session) (turns : Nat) : (s.idle turns).session.settings = s.settings := by
  induction turns generalizing s with
  | zero => rfl
  | succ turns ih => exact (ih s.turn.session).trans (settings_serve s .tick)

theorem settings_attend (s : Session) (input : Input) :
    (s.attend input).session.settings = s.settings :=
  (settings_serve (s.idle input.turns).session (.line input.line)).trans (s.settings_idle input.turns)

private theorem settings_of_mem_steps {s : Session} {inputs : List Input} {step : Session × Input}
    (executed : step ∈ s.steps inputs) : step.1.settings = s.settings := by
  induction inputs generalizing s with
  | nil => cases executed
  | cons input rest ih =>
    rcases List.mem_cons.mp executed with rfl | later
    · rfl
    · exact (ih later).trans (s.settings_attend input)

/-- The prompt loop, whatever is typed and whenever what scans in the background has its turns. It executes
the inputs up to the first that asks to exit or fails, or all, and tells what these tell; it has asked once
for each and once more when there are no more, and what comes after them makes no difference. It fails with
the failure of an input that it has executed: of a scan, of a start of the background with an interval that no
real holds, or of telling an integer that has too many digits. Nothing scans in the background after it. Without
turns in the background it is the plain loop. -/
theorem prompt_loop (s : Session) (last : Nat) (inputs : List Input) :
    let c := interactAmid last s inputs
    (∃ ran stop, Stops s inputs ran stop ∧
      c = s.greet (s.recount ((s.attended ran).close last stop) ran) ∧
      c.failure = stop.failure ∧
      c.printed.count .prompt = ran.length + stop.unanswered ∧
      (stop.unanswered = 0 → ∀ others, interactAmid last s (ran ++ others) = c) ∧
      (∀ fault, c.failure = some fault ↔ ∃ step ∈ s.steps ran,
        Raises (step.1.idle step.2.turns).session (.ofLine step.2.line) fault) ∧
      (s.settings.startable = true → ∀ fault, fault ≠ .value .unwritable →
        (c.failure = some fault ↔ ∃ step ∈ s.steps ran, Command.ofLine step.2.line = .scan ∧
          (step.1.idle step.2.turns).session.simulation.cycle.result = .error fault))) ∧
    c.session.background = .none ∧
    ∀ lines : List String,
      interactAmid 0 s (lines.map fun line => { line := line }) = s.interact lines := by
  intro c
  obtain ⟨ran, stop, stops⟩ := s.exists_stops inputs
  have told : converseAmid last s inputs = s.recount ((s.attended ran).close last stop) ran :=
    stops.converseAmid_eq last
  have failure : c.failure = stop.failure := by
    show (converseAmid last s inputs).failure = _
    rw [told, failure_recount, failure_close]
  have stopped : c.session.background = .none := by
    show (converseAmid last s inputs).session.background = _
    rw [told, session_recount, background_close]
  have asked : c.printed.count .prompt = ran.length + stop.unanswered := by
    show (s.greeting.map Printed.line ++ (converseAmid last s inputs).printed).count .prompt = _
    rw [List.count_append, count_lines, told, count_recount, count_close, Nat.zero_add]
  have ignored (early : stop.unanswered = 0) (others : List Input) :
      interactAmid last s (ran ++ others) = c := by
    show s.greet _ = s.greet _
    rw [(stops.others early others).converseAmid_eq last, told]
  refine ⟨⟨ran, stop, stops, congrArg s.greet told, failure, asked, ignored, ?_, ?_⟩, stopped, ?_⟩
  · intro fault
    rw [failure]
    exact stops.failure_iff fault
  · intro startable fault other
    rw [failure, stops.failure_iff fault]
    refine exists_congr fun step => and_congr_right fun executed => ?_
    have kept := (step.1.settings_idle step.2.turns).trans (settings_of_mem_steps executed)
    exact raises_iff_of_startable (kept ▸ startable) other
  · intro lines
    exact congrArg s.greet (s.converseAmid_quiet lines)

/-- The first turn in the background meets a loop and ends it, so the next line to switch it starts it anew,
and it is put away at the exit. What is typed after that is not looked at. -/
theorem looping_background_put_away :
    let s := start {} {} Scan.lampBesideLoop false
    let c := interactAmid 3 s [⟨0, "continuous"⟩, ⟨2, "Continuous"⟩, ⟨0, " EXIT now"⟩, ⟨1, ""⟩]
    c.printed.drop 2 =
      [.prompt, .line "▶️  Continuous simulation started",
        .prompt, .line "▶️  Continuous simulation started",
        .prompt, .line "⏹️  Continuous simulation stopped"] ∧
    c.failure = none ∧ c.session.background = .none ∧
    ∃ ran, ran.length = 3 ∧ (∀ others, interactAmid 3 s (ran ++ others) = c) ∧
      ∀ step ∈ s.steps ran, Command.ofLine step.2.line = .scan → ∀ fault,
        (step.1.idle step.2.turns).session.simulation.cycle.result ≠ .error fault := by
  intro s c
  have printed : c.printed.drop 2 =
      [.prompt, .line "▶️  Continuous simulation started",
        .prompt, .line "▶️  Continuous simulation started",
        .prompt, .line "⏹️  Continuous simulation stopped"] := by decide +kernel
  obtain ⟨⟨ran, stop, stops, -, -, asked, ignored, raises, -⟩, stopped, -⟩ :=
    prompt_loop s 3 [⟨0, "continuous"⟩, ⟨2, "Continuous"⟩, ⟨0, " EXIT now"⟩, ⟨1, ""⟩]
  have prompts : c.printed.count .prompt = 3 := by decide +kernel
  have some : ran.length + stop.unanswered = 3 := asked.symm.trans prompts
  have early : stop.unanswered = 0 := by
    cases stops with
    | endOfInput => cases some
    | exit => rfl
    | failed => rfl
  have calm : c.failure = none := Option.isNone_iff_eq_none.mp (by decide +kernel)
  refine ⟨printed, calm, stopped, ran, by omega, ignored early, ?_⟩
  intro step executed scan fault failed
  have raised : Raises (step.1.idle step.2.turns).session (.ofLine step.2.line) fault :=
    scan ▸ .scan failed
  cases calm.symm.trans ((raises fault).mpr ⟨step, executed, raised⟩)

/-- An interval may be an integer that no real holds. A line then fails that is no scan. -/
theorem huge_interval_raises :
    let s := start { scanInterval := .int (Int.pow 1000 200) } {} { id := "m", elements := [], connections := [] }
      false
    (s.interact ["continuous"]).failure = some .tooLarge ∧
      ∀ line ∈ ["continuous"], Command.ofLine line ≠ .scan := by
  intro s
  have huge {i : Int} (infinite : (Float.ofScientific i.natAbs true 3).isInf = true) :
      Runner.seconds? (.int i) = none := if_pos infinite
  have tooLarge : Runner.seconds? (.int (Int.pow 1000 200)) = none := huge (by decide +kernel)
  have unfit : s.settings.startable = false := by
    show ((Runner.seconds? (.int (Int.pow 1000 200))).isSome && _) = false
    rw [tooLarge]
    rfl
  have command : Command.ofLine "continuous" = .continuous := by decide
  have failed : (s.execute .continuous).result = .error .tooLarge :=
    switchContinuous_error_iff.mpr (.start rfl unfit)
  refine ⟨?_, ?_⟩
  · simp only [interact, converse, command, failed]
    rfl
  · rw [List.forall_mem_singleton, command]
    exact Command.noConfusion

end Session

end RungLogic
