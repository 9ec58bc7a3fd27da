import RungLogic.Proofs.Session.Assignment

/-!
A set command that is given twice. What the words after a name spell for a new variable they spell for the
variable that it has become, so the second command is accepted like the first one and finds its work done.
Durations are the exception: a new variable that is set to one holds the milliseconds as an integer, and the
text of a duration spells no integer.
-/

set_option autoImplicit false
set_option relaxedAutoImplicit false

namespace RungLogic.Session

/-- Reading a text of its own form finds a type, for which it reads in the same way. -/
private theorem readValue_of_readAny {text : String} {v : Value} (read : readAny text = .ok v)
    (other : ¬ OpensDuration text) : readValue (some (.ofValue v)) text = .ok v := by
  unfold readAny at read
  split at read
  · obtain ⟨w, same, ⟨b⟩⟩ | ⟨fault, -, refused⟩ := reads_truth text
    · cases same.symm.trans read
      exact same
    · cases refused.symm.trans read
  · split at read
    · rename_i w whole
      cases read
      have integer : VarType.ofValue v = .int := by
        obtain ⟨u, same, typed⟩ | ⟨fault, -, refused⟩ :=
          reads_integer text (@Typed.whole)
        · cases same.symm.trans whole
          cases typed
          rfl
        · cases refused.symm.trans whole
      rw [integer]
      exact whole
    · split at read
      · rename_i x real
        cases read
        simp [readValue, VarType.ofValue, readReal, real]
      · split at read
        · rename_i looks
          exact absurd (looksLikeDuration_iff.mp looks) other
        · cases read

variable {s : Session} {name : String} {words : List String} {v : Value}

private theorem setVariable_written (run : Text.IsRun name.toList)
    (spelled : s.spelled? name words = some v) :
    ∃ c : Content, c.type = Store.typeFor v (s.store.value? name) ∧ c.value = v ∧
      s.setVariable name words = (s.withStore (Table.put name c s.store)).tellWritten name v := by
  obtain ⟨c, type, value⟩ := (typed_of_spelled spelled).1.fits
  exact ⟨c, type, value, (setVariable_of_spelled spelled).trans (assign_of_fits run.isName type value)⟩

private theorem told_ne_refusal {line : String} {c : Char} {tail : List Char} (run : Text.IsRun name.toList)
    (refusal : line.toList = '❌' :: ' ' :: c :: tail) (other : c ≠ '=') (plain : String) :
    name ++ " = " ++ plain ≠ line := by
  rintro rfl
  simp only [String.toList_append, List.append_assoc] at refusal
  obtain ⟨nonempty, solid⟩ := run
  rcases hname : name.toList with _ | ⟨d, _ | ⟨e, rest⟩⟩
  · exact nonempty hname
  · rw [hname] at refusal
    have equals : " = ".toList = [' ', '=', ' '] := by decide
    rw [equals] at refusal
    simp at refusal
    exact other refusal.2.1.symm
  · rw [hname] at refusal solid
    have blank : e = ' ' := by simpa using (List.cons.inj (List.cons.inj refusal).2).1
    have bad := solid e (by simp)
    rw [blank] at bad
    cases bad

private theorem exists_refusal (unspelled : s.spelled? name words = none) :
    ∃ line c tail, (s.setVariable name words).lines = [line] ∧ line.toList = '❌' :: ' ' :: c :: tail ∧
      c ≠ '=' := by
  have missing (t : VarType) :
      ("❌ A value is required for " ++ t.name ++ " variable " ++ name).toList =
        '❌' :: ' ' :: 'A' :: (" value is required for " ++ t.name ++ " variable " ++ name).toList := by
    have mark : "❌ A value is required for ".toList =
        '❌' :: ' ' :: 'A' :: " value is required for ".toList := by decide
    simp only [String.toList_append, mark, List.cons_append]
  have unfit (reason : String) :
      ("❌ Invalid value for " ++ name ++ ": " ++ reason).toList =
        '❌' :: ' ' :: 'I' :: ("nvalid value for " ++ name ++ ": " ++ reason).toList := by
    have mark : "❌ Invalid value for ".toList = '❌' :: ' ' :: 'I' :: "nvalid value for ".toList := by
      decide
    simp only [String.toList_append, mark, List.cons_append]
  rcases words with _ | ⟨w, ws⟩
  · rw [spelled?, if_pos rfl] at unspelled
    rw [setVariable_bare]
    rcases held : s.typeOf? name with _ | t
    · simp [held] at unspelled
    · cases t with
      | bool => simp [held] at unspelled
      | int => exact ⟨_, 'A', _, rfl, missing .int, by decide⟩
      | real => exact ⟨_, 'A', _, rfl, missing .real, by decide⟩
      | time => exact ⟨_, 'A', _, rfl, missing .time, by decide⟩
  · rw [spelled?, if_neg (by simp)] at unspelled
    rw [setVariable_words]
    rcases read : readValue (s.typeOf? name) (" ".intercalate (w :: ws)) with fault | u
    · exact ⟨_, 'I', _, rfl, unfit fault.message, by decide⟩
    · rw [read] at unspelled
      cases unspelled

/-- A set command that writes a value does so because its words spell it. -/
private theorem spelled_of_writes (run : Text.IsRun name.toList)
    (writes : s.Writes name v (s.setVariable name words)) : s.spelled? name words = some v := by
  rcases spelled : s.spelled? name words with _ | u
  · obtain ⟨line, c, tail, told, refusal, other⟩ := exists_refusal spelled
    have same : [name ++ " = " ++ v.plain] = [line] := writes.told.lines.symm.trans told
    exact absurd (List.singleton_inj.mp same) (told_ne_refusal run refusal other v.plain)
  · obtain ⟨c, -, rfl, reply⟩ := setVariable_written run spelled
    obtain ⟨d, -, rfl, changes⟩ := writes.entry
    have held : (Table.put name c s.store).value? name = some d := by
      have entry := changes.entry
      rw [reply] at entry
      exact entry
    rw [Table.value?_put_self] at held
    cases held
    rfl

private theorem writes_of_spelled {line word : String} (split : Text.words line = word :: name :: words)
    (asks : Text.lowerASCII word = "set") (spelled : s.spelled? name words = some v)
    (short : v.isLong = false) : s.Writes name v (s.execute (.ofLine line)) := by
  have member : name ∈ Text.words line := by simp [split]
  rw [ofLine_set split asks]
  show s.Writes name v (s.setVariable name words)
  rw [setVariable_of_spelled spelled]
  exact (writes_assign (Text.isRun_of_mem_words member) (typed_of_spelled spelled).1 short).2

private theorem spelled?_congr {s' : Session} (same : s'.typeOf? name = s.typeOf? name)
    (words : List String) :
    s'.spelled? name words = s.spelled? name words := by
  simp only [spelled?, same]

private theorem spelled?_declared {s' : Session} (new : s.typeOf? name = none)
    (spelled : s.spelled? name words = some v) (declared : s'.typeOf? name = some (.ofValue v)) :
    (¬ OpensDuration (" ".intercalate words) → s'.spelled? name words = some v) ∧
      (OpensDuration (" ".intercalate words) → s'.spelled? name words = none) := by
  rcases words with _ | ⟨w, ws⟩
  · rw [spelled?, if_pos rfl, if_pos (.inl new)] at spelled
    cases spelled
    refine ⟨fun _ => ?_, fun opens => ?_⟩
    · rw [spelled?, if_pos rfl, if_pos (.inr declared)]
    · cases opens.mem
  · rw [spelled?, if_neg (by simp), new] at spelled
    rw [spelled?, if_neg (by simp), declared]
    rcases read : readAny (" ".intercalate (w :: ws)) with fault | u
    · rw [readValue, read] at spelled
      cases spelled
    · rw [readValue, read] at spelled
      cases spelled
      refine ⟨fun other => ?_, fun opens => ?_⟩
      · rw [readValue_of_readAny read other]
        rfl
      · have integer : VarType.ofValue v = .int := by
          obtain ⟨w, same, typed⟩ | ⟨fault, -, refused⟩ :=
            reads_duration (" ".intercalate (w :: ws)) (@Typed.whole)
          · cases same.symm.trans (opens.readAny.symm.trans read)
            cases typed
            rfl
          · cases refused.symm.trans (opens.readAny.symm.trans read)
        obtain ⟨fault, refused⟩ := opens.readInteger
        rw [integer, readValue, refused]
        rfl

private theorem typeOf?_setVariable (run : Text.IsRun name.toList)
    (spelled : s.spelled? name words = some v) :
    (s.setVariable name words).session.typeOf? name = some ((s.typeOf? name).getD (.ofValue v)) := by
  obtain ⟨c, type, -, reply⟩ := setVariable_written run spelled
  have held : (s.setVariable name words).session.store.value? name = some c := by
    rw [reply]
    exact Table.value?_put_self name c s.store
  rw [typeOf?, held, Option.map_some, type, typeOf?]
  cases s.store.value? name <;> rfl

/-- When its words still spell the value, a set command that is given again finds its work done. -/
private theorem setVariable_twice (run : Text.IsRun name.toList) (spelled : s.spelled? name words = some v)
    (still : (s.setVariable name words).session.spelled? name words = some v) :
    (s.setVariable name words).session.setVariable name words = s.setVariable name words := by
  obtain ⟨c, -, rfl, reply⟩ := setVariable_written run spelled
  rw [reply, session_tellWritten] at still ⊢
  have held : (s.withStore (Table.put name c s.store)).store.value? name = some c :=
    Table.value?_put_self name c s.store
  have fits : c.type = Store.typeFor c.value
      ((s.withStore (Table.put name c s.store)).store.value? name) := by
    rw [held]
    rfl
  rw [setVariable_of_spelled still, assign_of_fits run.isName fits rfl,
    Table.put_of_value? held]
  rfl

/-- An accepted set command, given again. It finds its work done and gives the same reply, unless it has set a
new variable to a duration; then it is refused, and the session stays as it is. -/
theorem set_again (s : Session) {line word name : String} {words : List String} {v : Value}
    (split : Text.words line = word :: name :: words) (asks : Text.lowerASCII word = "set")
    (writes : s.Writes name v (s.execute (.ofLine line))) :
    let r := s.execute (.ofLine line)
    let again := r.session.execute (.ofLine line)
    let newDuration := s.typeOf? name = none ∧ OpensDuration (" ".intercalate words)
    again.session = r.session ∧ (¬ newDuration → again = r) ∧ (newDuration → r.session.Refuses again) := by
  intro r again newDuration
  have runs : ∀ w ∈ name :: words, Text.IsRun w.toList := fun w hw =>
    Text.isRun_of_mem_words (split ▸ List.mem_cons_of_mem word hw)
  obtain ⟨run, runs⟩ := List.forall_mem_cons.mp runs
  have executed (t : Session) : t.execute (.ofLine line) = t.setVariable name words := by
    rw [ofLine_set split asks]
    rfl
  have first : r = s.setVariable name words := executed s
  have second : again = r.session.setVariable name words := executed r.session
  have spelled : s.spelled? name words = some v := spelled_of_writes run (executed s ▸ writes)
  have declared : r.session.typeOf? name = some ((s.typeOf? name).getD (.ofValue v)) := by
    rw [first]
    exact typeOf?_setVariable run spelled
  have accepted (still : r.session.spelled? name words = some v) : again = r := by
    rw [second, first]
    exact setVariable_twice run spelled (first ▸ still)
  rcases old : s.typeOf? name with _ | t
  · -- The variable is new, so its type comes from the value that the words spell without one.
    rw [old] at declared
    obtain ⟨other, opened⟩ := spelled?_declared old spelled declared
    by_cases opens : OpensDuration (" ".intercalate words)
    · have refuses : r.session.Refuses again := by
        rw [second]
        exact (refuses_of_unspelled run runs (opened opens)).2
      exact ⟨refuses.session, fun usual => absurd ⟨old, opens⟩ usual, fun _ => refuses⟩
    · have same := accepted (other opens)
      exact ⟨congrArg Reply.session same, fun _ => same, fun unusual => absurd unusual.2 opens⟩
  · -- A variable that was there has kept its type, and the words are read as before.
    have kept : r.session.typeOf? name = s.typeOf? name := by rw [declared, old, Option.getD_some]
    have same := accepted ((spelled?_congr kept words).trans spelled)
    exact ⟨congrArg Reply.session same, fun _ => same, fun unusual => by cases old.symm.trans unusual.1⟩

/-- A variable of a time takes its duration twice; a new one takes it once. -/
theorem timer_is_set_again :
    let s := start {} {} { id := "bench", elements := [], connections := [] } false
    let kept := "set TIMER T#2m"
    let lost := "SET delay t#2m"
    let r := s.execute (.ofLine kept)
    let again := r.session.execute (.ofLine kept)
    let other := s.execute (.ofLine lost)
    (s.Writes "TIMER" (.int 120000) r ∧ again = r) ∧
      s.Writes "delay" (.int 1000) other ∧
        other.session.Refuses (other.session.execute (.ofLine lost)) := by
  intro s kept lost r again other
  have keptWords : Text.words kept = ["set", "TIMER", "T#2m"] := by decide
  have lostWords : Text.words lost = ["SET", "delay", "t#2m"] := by decide
  have asks : Text.lowerASCII "set" = "set" ∧ Text.lowerASCII "SET" = "set" := by decide
  have keptWrites : s.Writes "TIMER" (.int 120000) r :=
    writes_of_spelled keptWords asks.1 rfl (by decide +kernel)
  have lostWrites : s.Writes "delay" (.int 1000) other :=
    writes_of_spelled lostWords asks.2 rfl (by decide +kernel)
  obtain ⟨-, same, -⟩ := s.set_again keptWords asks.1 keptWrites
  obtain ⟨-, -, refuses⟩ := s.set_again lostWords asks.2 lostWrites
  have opens : OpensDuration (" ".intercalate ["t#2m"]) := ⟨['2', 'm'], .inr (by decide)⟩
  exact ⟨⟨keptWrites, same fun new => by cases new.1⟩, lostWrites, refuses ⟨rfl, opens⟩⟩

/-- A new variable takes the text of a duration once. Given again, the same line is refused. -/
theorem duration_refused_again :
    let s := start {} {} { id := "bench", elements := [], connections := [] } false
    let line := "set DELAY T#5s"
    let r := s.execute (.ofLine line)
    s.Writes "DELAY" (.int 5000) r ∧ r.lines = ["DELAY = 5000"] ∧
      (r.session.execute (.ofLine line)).lines =
        ["❌ Invalid value for DELAY: invalid literal for int() with base 10: 'T#5s'"] := by
  intro s line r
  have words : Text.words line = ["set", "DELAY", "T#5s"] := by decide
  exact ⟨writes_of_spelled words (by decide) rfl (by decide +kernel), by decide +kernel, by decide +kernel⟩

end RungLogic.Session
