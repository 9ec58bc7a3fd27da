import RungLogic.Proofs.Outcomes
import RungLogic.Proofs.Session.Assignment
import RungLogic.Proofs.Session.Reload

/-!
What fails at the prompt. A line fails when its scan does, or when it starts the background with an interval
that no real holds. Else a line fails only in what it tells, because of an integer that has too many digits:
the value of a variable, the output of an element or what stands in its label.
-/

set_option autoImplicit false
set_option relaxedAutoImplicit false

namespace RungLogic

private theorem Value.told_error_iff {v : Value} {fault : Error} :
    v.told = .error fault ↔ v.isLong = true ∧ fault = .value .unwritable := by
  rcases long : v.isLong with _ | _
  · simp [told, long]
  · simp [told, long, eq_comm]

namespace Session

/-- A variable holds an integer of too many digits. -/
def LongVariable (s : Session) : Prop := ∃ p ∈ s.store, p.2.value.isLong = true

/-- An element shows an integer of too many digits, as its output or in its label. -/
def LongElement (s : Session) : Prop :=
  ∃ e ∈ s.simulation.scanner.network.elements,
    (∃ signal, s.simulation.context.recorded.value? e.id = some signal ∧ signal.value.isLong = true) ∨
      ∃ tag, e.tag? = some tag ∧ tag.isLong = true

/-- The session after a scan. -/
def scanned (s : Session) : Session := { s with simulation := s.simulation.cycle.state }

private theorem result_tellable (lines : List (Except Error String)) :
    (tellable lines).2 = (lines.mapM fun line => line).map fun _ => () := by
  induction lines with
  | nil => rfl
  | cons line rest ih =>
    rw [List.mapM_cons]
    cases line with
    | error fault => rfl
    | ok text =>
      rw [tellable, ih]
      cases rest.mapM fun line => line <;> rfl

private theorem recite_error_iff (s : Session) {lines : List (Except Error String)} {notices : List Notice}
    {fault : Error} (fails : ∀ line ∈ lines, ∀ other, line = .error other → other = .value .unwritable) :
    (s.recite lines notices).result = .error fault ↔
      .error (.value .unwritable) ∈ lines ∧ fault = .value .unwritable := by
  have each : ∀ line ∈ lines, ∀ other, line = .error other ↔
      line = .error (.value .unwritable) ∧ other = .value .unwritable := fun line member other =>
    ⟨fun failed => fails line member other failed ▸ ⟨failed, rfl⟩, fun ⟨failed, same⟩ => same ▸ failed⟩
  have mapped : (lines.mapM fun line => line) = .error fault ↔
      (∃ line ∈ lines, line = .error (.value .unwritable)) ∧ fault = .value .unwritable :=
    mapM_error_iff_exists each
  have result : (s.recite lines notices).result = (lines.mapM fun line => line).map fun _ => () :=
    result_tellable lines
  have unmapped (told : Except Error (List String)) :
      (told.map fun _ => ()) = .error fault ↔ told = .error fault := by
    cases told <;> simp [Except.map]
  rw [result, unmapped, mapped, exists_eq_right]

variable {s : Session} {fault : Error}

private theorem variablesLine_error_iff :
    s.variablesLine = .error fault ↔ s.LongVariable ∧ fault = .value .unwritable := by
  let entry (p : String × Content) : Except Error String :=
    p.2.value.told.bind fun text => .ok (p.1 ++ "=" ++ text)
  have entries : s.store.mapM entry = .error fault ↔
      (∃ p ∈ s.store, p.2.value.isLong = true) ∧ fault = .value .unwritable :=
    mapM_error_iff_exists fun p _ other => by simp [entry, bind_error_iff, Value.told_error_iff]
  have line : s.variablesLine =
      (s.store.mapM entry).bind fun entries => .ok ("Variables: " ++ ", ".intercalate entries) := rfl
  rw [line, bind_error_iff, entries]
  simp [LongVariable]

private theorem outputText_error_iff {output : Option Signal} :
    outputText output = .error fault ↔
      (∃ signal, output = some signal ∧ signal.value.isLong = true) ∧ fault = .value .unwritable := by
  rcases output with _ | signal
  · simp [outputText]
  · simp only [Option.some.injEq, exists_eq_left']
    cases signal with
    | truth b =>
      have short : (Signal.truth b).value.isLong = false := rfl
      rw [short]
      exact ⟨fun told => (by cases told), fun long => (by cases long.1)⟩
    | _ => exact Value.told_error_iff

theorem toldLabel_error_iff {e : Element} :
    e.toldLabel = .error fault ↔
      (∃ tag, e.tag? = some tag ∧ tag.isLong = true) ∧ fault = .value .unwritable := by
  rw [Element.toldLabel, ← Option.any_eq_true]
  split
  · rename_i long
    simp [long, eq_comm]
  · rename_i short
    simp [short]

private theorem elementLine_error_iff {e : Element} :
    s.elementLine e = .error fault ↔
      ((∃ signal, s.simulation.context.recorded.value? e.id = some signal ∧ signal.value.isLong = true) ∨
        ∃ tag, e.tag? = some tag ∧ tag.isLong = true) ∧ fault = .value .unwritable := by
  have line : s.elementLine e = (outputText (s.simulation.context.recorded.value? e.id)).bind fun output =>
      e.toldLabel.bind fun label => .ok ("  " ++ padded 28 label ++ " " ++ output) := rfl
  rw [line]
  rcases told : outputText (s.simulation.context.recorded.value? e.id) with other | output
  · obtain ⟨long, rfl⟩ := outputText_error_iff.mp told
    exact ⟨fun failed => ⟨.inl long, (Except.error.inj failed).symm⟩, fun failed => failed.2 ▸ rfl⟩
  · have short : ¬ ∃ signal, s.simulation.context.recorded.value? e.id = some signal ∧
        signal.value.isLong = true := fun long => by
      cases told.symm.trans (outputText_error_iff.mpr ⟨long, rfl⟩)
    have rest : (e.toldLabel.bind fun label => .ok ("  " ++ padded 28 label ++ " " ++ output)) =
        .error fault ↔ e.toldLabel = .error fault := by
      simp [bind_error_iff]
    rw [or_iff_right short, ← toldLabel_error_iff]
    exact rest

private theorem mem_elementLines_iff :
    .error fault ∈ s.elementLines ↔ s.LongElement ∧ fault = .value .unwritable := by
  simp only [elementLines, List.mem_map, elementLine_error_iff, LongElement, ← and_assoc, exists_and_right]

/-- What fails at the prompt, and how: a scan that fails; a start of the background with an interval that no
real holds; the telling of the variables, or of the elements where they are displayed, after a scan; the
telling of the elements where their display is switched on; and the telling of a value that has been set. -/
inductive Raises (s : Session) : Command → Error → Prop
  | scan {fault : Error} : s.simulation.cycle.result = .error fault → Raises s .scan fault
  | start : s.isContinuous = false → s.settings.startable = false → Raises s .continuous .tooLarge
  | variables : s.simulation.cycle.result = .ok () → s.scanned.LongVariable →
      Raises s .scan (.value .unwritable)
  | elements : s.simulation.cycle.result = .ok () → s.visual = true → s.scanned.LongElement →
      Raises s .scan (.value .unwritable)
  | display : s.visual = false → s.LongElement → Raises s .visual (.value .unwritable)
  | set {name : String} {words : List String} {v : Value} : s.spelled? name words = some v →
      v.isLong = true → Raises s (.set (name :: words)) (.value .unwritable)

variable {command : Command} {notices : List Notice}

private theorem error_iff_of_ok {result : Except Error Unit} {raises : Prop} (ok : result = .ok ())
    (never : ¬ raises) : result = .error fault ↔ raises := by
  rw [ok]
  exact ⟨fun failed => (by cases failed), fun raised => absurd raised never⟩

private theorem result_stopContinuous (s : Session) : s.stopContinuous.result = .ok () := by
  unfold stopContinuous
  split <;> rfl

private theorem recite_elements_error_iff {line : Except Error String} {long : Prop}
    (first : ∀ other, line = .error other ↔ long ∧ other = .value .unwritable) :
    (s.recite (line :: if s.visual then s.elementLines else []) notices).result = .error fault ↔
      (long ∨ s.visual = true ∧ s.LongElement) ∧ fault = .value .unwritable := by
  have displayed {other : Error} : .error other ∈ (if s.visual then s.elementLines else []) ↔
      (s.visual = true ∧ s.LongElement) ∧ other = .value .unwritable := by
    cases s.visual <;> simp [mem_elementLines_iff]
  rw [recite_error_iff, List.mem_cons, displayed, eq_comm, first]
  · simp
  · rintro l member other rfl
    rcases List.mem_cons.mp member with same | member
    · exact ((first other).mp same.symm).2
    · exact (displayed.mp member).2

private theorem scan_error_iff : s.scan.result = .error fault ↔ s.Raises .scan fault := by
  rcases cycle : s.simulation.cycle.result with other | _
  · have result : s.scan.result = .error other := by rw [Session.scan, cycle]
    rw [result]
    constructor
    · rintro ⟨⟩
      exact .scan cycle
    · rintro (failed | _ | ok | ok)
      · exact cycle.symm.trans failed
      · cases cycle.symm.trans ok
      · cases cycle.symm.trans ok
  · have told : s.scan = s.scanned.recite
        (s.scanned.variablesLine :: if s.scanned.visual then s.scanned.elementLines else [])
        s.simulation.cycle.notices := by
      rw [Session.scan, cycle]
      rfl
    rw [told, recite_elements_error_iff fun _ => variablesLine_error_iff]
    constructor
    · rintro ⟨long | ⟨displayed, long⟩, rfl⟩
      · exact .variables cycle long
      · exact .elements cycle displayed long
    · rintro (failed | _ | ⟨-, long⟩ | ⟨-, displayed, long⟩)
      · cases cycle.symm.trans failed
      · exact ⟨.inl long, rfl⟩
      · exact ⟨.inr ⟨displayed, long⟩, rfl⟩

private theorem toggleVisual_error_iff : s.toggleVisual.result = .error fault ↔ s.Raises .visual fault := by
  let next : Session := { s with visual := !s.visual }
  have heading (other : Error) :
      (.ok ("Visualization " ++ if next.visual then "on" else "off") : Except Error String) =
        .error other ↔ False ∧ other = .value .unwritable := by
    simp
  have told : s.toggleVisual.result = .error fault ↔
      (False ∨ next.visual = true ∧ next.LongElement) ∧ fault = .value .unwritable :=
    recite_elements_error_iff heading
  rw [told, false_or]
  constructor
  · rintro ⟨⟨on, long⟩, rfl⟩
    exact .display (by simpa [next] using on) long
  · rintro ⟨⟩
    rename_i off long
    exact ⟨⟨by simp [next, off], long⟩, rfl⟩

private theorem setVariable_error_iff {name : String} {words : List String} (run : Text.IsRun name.toList)
    (runs : ∀ w ∈ words, Text.IsRun w.toList) :
    (s.setVariable name words).result = .error fault ↔ s.Raises (.set (name :: words)) fault := by
  rcases s.settles_setVariable run runs with ⟨v, spelled, ⟨short, ok, -⟩ | ⟨-, overruns⟩⟩ |
    ⟨unspelled, ok, -⟩
  · refine error_iff_of_ok ok ?_
    rintro (_ | _ | _ | _ | _ | ⟨given, long⟩)
    cases given.symm.trans spelled
    cases short.symm.trans long
  · rw [overruns.result]
    constructor
    · rintro ⟨⟩
      exact .set spelled overruns.long
    · rintro ⟨⟩
      rfl
  · refine error_iff_of_ok ok ?_
    rintro (_ | _ | _ | _ | _ | ⟨given, -⟩)
    cases given.symm.trans unspelled

theorem switchContinuous_error_iff :
    (s.execute .continuous).result = .error fault ↔ s.Raises .continuous fault := by
  rcases going : s.isContinuous with _ | _
  · rcases fits : s.settings.startable with _ | _
    · have raised : (s.execute .continuous).result = .error .tooLarge := by
        simp [execute, startContinuous_eq, going, fits]
      rw [raised]
      constructor
      · rintro ⟨⟩
        exact .start going fits
      · rintro ⟨⟩
        rfl
    · have ok : (s.execute .continuous).result = .ok () := by
        simp [execute, startContinuous_eq, going, fits]
      refine error_iff_of_ok ok ?_
      rintro ⟨⟩
      rename_i unfit
      cases fits.symm.trans unfit
  · have ok : (s.execute .continuous).result = .ok () := by
      simp [execute, going, s.result_stopContinuous]
    refine error_iff_of_ok ok ?_
    rintro ⟨⟩
    rename_i idle _
    cases going.symm.trans idle

private theorem isRun_of_ofLine_set {line : String} {arguments : List String}
    (asks : Command.ofLine line = .set arguments) : ∀ w ∈ arguments, Text.IsRun w.toList := by
  intro w member
  unfold Command.ofLine at asks
  split at asks
  · cases asks
  · rename_i word rest words
    split at asks
    case h_4 =>
      cases asks
      exact Text.isRun_of_mem_words (words ▸ List.mem_cons_of_mem word member)
    all_goals cases asks

/-- The lines that fail, and how. -/
theorem execute_error_iff (s : Session) (line : String) (fault : Error) :
    (s.execute (.ofLine line)).result = .error fault ↔ s.Raises (.ofLine line) fault := by
  rcases asked : Command.ofLine line with _ | _ | _ | _ | (_ | ⟨name, words⟩) | _ | word
  case scan => exact scan_error_iff
  case continuous => exact switchContinuous_error_iff
  case visual => exact toggleVisual_error_iff
  case set.cons =>
    obtain ⟨run, runs⟩ := List.forall_mem_cons.mp (isRun_of_ofLine_set asked)
    exact setVariable_error_iff run runs
  case exit => exact error_iff_of_ok s.result_stopContinuous nofun
  all_goals exact error_iff_of_ok rfl nofun

/-- Where a runner can be started, what fails is a scan, or an integer is too long to be told. -/
theorem raises_iff_of_startable (startable : s.settings.startable = true)
    (other : fault ≠ .value .unwritable) :
    s.Raises command fault ↔ command = .scan ∧ s.simulation.cycle.result = .error fault := by
  constructor
  · intro raises
    cases raises with
    | scan failed => exact ⟨rfl, failed⟩
    | start _ unfit => cases startable.symm.trans unfit
    | _ => exact absurd rfl other
  · rintro ⟨rfl, failed⟩
    exact .scan failed

end Session

end RungLogic
