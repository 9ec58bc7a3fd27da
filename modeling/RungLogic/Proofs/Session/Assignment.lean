import RungLogic.Proofs.Number.Limit
import RungLogic.Proofs.Number.Numerals
import RungLogic.Proofs.Session.Durations
import RungLogic.Proofs.Text.Breaks
import RungLogic.Proofs.Variables
import RungLogic.Session

/-!
Setting variables at the prompt. Whatever stands after the word, the command does one of two things: it
writes the variable it names and tells the value, when the words after the name spell a value of its type,
or it tells in one line why not and leaves the session as it was. What the words spell always fits, so the
checks of the store never refuse it. But a duration may have more digits in milliseconds than in its own
unit, too many to be told; then the variable is written and the command fails.
-/

set_option autoImplicit false
set_option relaxedAutoImplicit false

namespace RungLogic

open Text (Unbroken)

private theorem Store.Changes.sound {s later : Store} {key : String} {c : Content}
    (changes : s.Changes key c later) (named : Text.isName key = true) (sound : s.Sound) :
    later.Sound := by
  have valid : ∀ k ∈ s.names, Text.isName k = true :=
    List.forall_mem_map.mpr ((Store.valid_iff s).mp sound.valid)
  suffices h : (∀ k ∈ later.names, Text.isName k = true) ∧ later.names.Nodup from
    ⟨(Store.valid_iff later).mpr (List.forall_mem_map.mp h.1), h.2⟩
  by_cases member : key ∈ s.names
  · rw [changes.kept member]
    exact ⟨valid, sound.nodup⟩
  · have names : later.names = s.names ++ [key] := by
      rw [changes.new member, Table.names, List.map_append]
      rfl
    rw [names]
    refine ⟨List.forall_mem_append.mpr ⟨valid, by simpa using named⟩, ?_⟩
    exact List.nodup_append.mpr ⟨sound.nodup, List.nodup_singleton key, by
      rintro a ha b hb rfl
      exact member (List.mem_singleton.mp hb ▸ ha)⟩

private theorem Store.write_of_fits {s : Store} {name : String} {v : Value} {c : Content}
    (named : Text.isName name = true) (type : c.type = typeFor v (s.value? name)) (value : c.value = v) :
    s.write (.text name) v = .ok (Table.put name c s) := by
  have found : s.find (.text name) = .ok (s.value? name) := rfl
  rw [write, found]
  rcases held : s.value? name with _ | old
  · rw [held] at type
    exact declare_ok_iff.mpr
      ⟨name, c, ⟨rfl, named⟩, ⟨by rw [VarType.named?_name, type]; rfl, value⟩, rfl⟩
  · rw [held] at type
    have fits : Content.ofValue? old.type v = some c :=
      Content.ofValue?_eq_some_iff.mpr ⟨type, value⟩
    simp only [bind, Except.bind, fits]
    rfl

namespace Session

/-- The values that can be typed for a variable of a type, or for one that is new. -/
inductive Typed : Option VarType → Value → Prop
  | truth (b : Bool) : Typed (some .bool) (.bool b)
  | whole (i : Int) : Typed (some .int) (.int i)
  | measure (x : Float) : Typed (some .real) (.num (.real x))
  | span (i : Int) : Typed (some .time) (.int i)
  | newTruth (b : Bool) : Typed none (.bool b)
  | newWhole (i : Int) : Typed none (.int i)
  | newMeasure (x : Float) : Typed none (.num (.real x))

/-- What is said about a text that is not read. -/
inductive Complaint (text : String) : ValueFault → Prop
  | truth : Complaint text (.notATruthValue text)
  | integer : Complaint text (.notAnInteger text)
  | real : Complaint text (.notAReal text)
  | type : Complaint text (.noType text)
  | long (digits : Nat) : Complaint text (.unreadable digits)

/-- A reader gives a value of the type that is asked for, or complains about the text. -/
def Reads (type : Option VarType) (text : String) (result : Except ValueFault Value) : Prop :=
  (∃ v, result = .ok v ∧ Typed type v) ∨ ∃ fault, Complaint text fault ∧ result = .error fault

theorem reads_truth (text : String) : Reads (some .bool) text (readTruth text) := by
  unfold readTruth
  split
  · exact .inl ⟨_, rfl, .truth _⟩
  · exact .inr ⟨_, .truth, rfl⟩

theorem reads_integer (text : String) {type : Option VarType}
    (typed : ∀ i : Int, Typed type (.int i)) : Reads type text (readInteger text) := by
  unfold readInteger
  split
  · exact .inr ⟨_, .long _, rfl⟩
  · exact .inl ⟨_, rfl, typed _⟩
  · exact .inr ⟨_, .integer, rfl⟩

private theorem reads_real (text : String) : Reads (some .real) text (readReal text) := by
  unfold readReal
  split
  · exact .inl ⟨_, rfl, .measure _⟩
  · exact .inr ⟨_, .real, rfl⟩

theorem reads_duration (text : String) {type : Option VarType}
    (typed : ∀ i : Int, Typed type (.int i)) : Reads type text (readDuration text) := by
  unfold readDuration
  split
  · exact .inr ⟨_, .long _, rfl⟩
  · exact .inl ⟨_, rfl, typed _⟩

private theorem reads_any (text : String) : Reads none text (readAny text) := by
  unfold readAny
  split
  · rcases reads_truth text with ⟨_, read, ⟨b⟩⟩ | refused
    · exact .inl ⟨_, read, .newTruth b⟩
    · exact .inr refused
  · split
    · rename_i v whole
      rcases reads_integer text .newWhole with ⟨u, read, typed⟩ | ⟨fault, -, refused⟩
      · cases read.symm.trans whole
        exact .inl ⟨_, rfl, typed⟩
      · cases refused.symm.trans whole
    · split
      · exact .inl ⟨_, rfl, .newMeasure _⟩
      · split
        · exact reads_duration text .newWhole
        · exact .inr ⟨_, .type, rfl⟩

private theorem reads_value (type : Option VarType) (text : String) :
    Reads type text (readValue type text) := by
  unfold readValue
  split
  · exact reads_truth text
  · exact reads_integer text .whole
  · exact reads_real text
  · split
    · exact reads_duration text .span
    · exact reads_integer text .span
  · exact reads_any text

theorem Typed.fits {old : Option Content} {v : Value} (h : Typed (old.map Content.type) v) :
    ∃ c : Content, c.type = Store.typeFor v old ∧ c.value = v := by
  generalize asked : old.map Content.type = type at h
  rcases old with _ | old
  · cases h with
    | newTruth b => exact ⟨.truth b, rfl, rfl⟩
    | newWhole i => exact ⟨.whole i, rfl, rfl⟩
    | newMeasure x => exact ⟨.measure (.real x), rfl, rfl⟩
    | _ => cases asked
  · have same : some old.type = type := asked
    rw [Store.typeFor]
    cases h with
    | truth b => exact ⟨.truth b, (Option.some.inj same).symm, rfl⟩
    | whole i => exact ⟨.whole i, (Option.some.inj same).symm, rfl⟩
    | measure x => exact ⟨.measure (.real x), (Option.some.inj same).symm, rfl⟩
    | span i => exact ⟨.span (.int i), (Option.some.inj same).symm, rfl⟩
    | _ => cases same

/-- The unit of a duration adds to its digits. Any other integer is no longer than the text that it is
read from, which would not have been read beyond the limit. -/
private theorem opensDuration_of_isLong {type : Option VarType} {text : String} {v : Value}
    (read : readValue type text = .ok v) (long : v.isLong = true) : OpensDuration text := by
  have truth (read : readTruth text = .ok v) : OpensDuration text := by
    unfold readTruth at read
    split at read
    · cases read
      cases long
    · cases read
  have integer (read : readInteger text = .ok v) : OpensDuration text := by
    unfold readInteger at read
    split at read
    · cases read
    · rename_i i fits whole
      cases read
      cases (Number.not_isLong_of_readInteger? whole fits).symm.trans long
    · cases read
  have opens (h : looksLikeDuration text = true) : OpensDuration text := looksLikeDuration_iff.mp h
  unfold readValue at read
  split at read
  · exact truth read
  · exact integer read
  · unfold readReal at read
    split at read
    · cases read
      cases long
    · cases read
  · split at read
    · rename_i looks
      exact opens looks
    · exact integer read
  · unfold readAny at read
    split at read
    · exact truth read
    · split at read
      · rename_i whole
        cases read
        exact integer whole
      · split at read
        · cases read
          cases long
        · split at read
          · rename_i looks
            exact opens looks
          · cases read

private theorem unbroken_number (n : Number) : Unbroken n.text := fun c hc =>
  Text.not_isBreak_of_not_isBlank (Number.isBlank_numeral (n.isNumeral_text c hc))

private theorem Typed.unbroken {type : Option VarType} {v : Value} (h : Typed type v) :
    Unbroken v.plain := by
  cases h with
  | truth b | newTruth b => cases b <;> decide
  | whole i | span i | newWhole i => exact unbroken_number (.int i)
  | measure x | newMeasure x => exact unbroken_number (.real x)

private theorem Complaint.unbroken {text : String} {fault : ValueFault} (complaint : Complaint text fault)
    (solid : Unbroken text) : Unbroken fault.message := by
  cases complaint with
  | truth => exact (Unbroken.append (by decide) solid).append (by decide)
  | integer =>
    refine Unbroken.append (by decide) fun c hc => ?_
    rw [beginning, String.toList_ofList] at hc
    exact solid.quoted c (List.mem_of_mem_take hc)
  | real => exact Unbroken.append (by decide) solid.quoted
  | type => exact (Unbroken.append (by decide) solid).append (by decide)
  | long digits =>
    have counted : Unbroken (toString digits) := unbroken_number (.int digits)
    have told : Unbroken (": value has " ++ toString digits ++ " digits") :=
      (Unbroken.append (by decide) counted).append (by decide)
    exact (Unbroken.append (by decide) told).append (by decide)

def typeOf? (s : Session) (name : String) : Option VarType := (s.store.value? name).map Content.type

/-- The value that the words after a name spell for the variable of that name. No words spell false, which
only a truth variable or a new one can be. -/
def spelled? (s : Session) (name : String) (words : List String) : Option Value :=
  if words = [] then
    if s.typeOf? name = none ∨ s.typeOf? name = some .bool then some (.bool false) else none
  else (readValue (s.typeOf? name) (" ".intercalate words)).toOption

def withStore (s : Session) (store : Store) : Session :=
  { s with simulation.context.store := store }

/-- A reply tells this and nothing else, on one line. -/
structure Tells (r : Reply) (line : String) : Prop where
  lines : r.lines = [line]
  one : Text.lines line = [line]
  notices : r.notices = []

/-- A variable has received a value that fits its type, or its own type when it is new, and nothing else has
changed. -/
structure Stores (s : Session) (name : String) (v : Value) (r : Reply) : Prop where
  fits : (Store.typeFor v (s.store.value? name)).Admits v
  entry : ∃ c : Content, c.type = Store.typeFor v (s.store.value? name) ∧ c.value = v ∧
    s.store.Changes name c r.session.store
  rest : r.session = s.withStore r.session.store

/-- A variable has received a value, and the reply tells the name and the value. -/
structure Writes (s : Session) (name : String) (v : Value) (r : Reply) : Prop extends
    Stores s name v r where
  told : Tells r (name ++ " = " ++ v.plain)

/-- A variable has received a value with an integer of too many digits, so that the command fails and tells
nothing. -/
structure Overruns (s : Session) (name : String) (v : Value) (r : Reply) : Prop extends
    Stores s name v r where
  long : v.isLong = true
  result : r.result = .error (.value .unwritable)
  silent : r.lines = [] ∧ r.notices = []

/-- Nothing has changed, and the reply tells an error. -/
structure Refuses (s : Session) (r : Reply) : Prop where
  session : r.session = s
  told : ∃ reason, Tells r ("❌ " ++ reason)

/-- The reply that tells a value which has been written. -/
def tellWritten (s : Session) (name : String) (v : Value) : Reply :=
  s.recite [v.told.map fun text => name ++ " = " ++ text]

private theorem tellWritten_of_short (s : Session) (name : String) {v : Value} (short : v.isLong = false) :
    s.tellWritten name v = { session := s, lines := [name ++ " = " ++ v.plain] } := by
  simp [tellWritten, Value.told, short, Except.map, recite, tellable]

private theorem tellWritten_of_long (s : Session) (name : String) {v : Value} (long : v.isLong = true) :
    s.tellWritten name v = { result := .error (.value .unwritable), session := s } := by
  simp [tellWritten, Value.told, long, Except.map, recite, tellable]

theorem session_tellWritten (s : Session) (name : String) (v : Value) :
    (s.tellWritten name v).session = s := rfl

theorem assign_of_fits {s : Session} {name : String} {v : Value} {c : Content}
    (named : Text.isName name = true) (type : c.type = Store.typeFor v (s.store.value? name))
    (value : c.value = v) :
    s.assign name v = (s.withStore (Table.put name c s.store)).tellWritten name v := by
  have written : s.simulation.write (.text name) v =
      .ok (s.withStore (Table.put name c s.store)).simulation := by
    have store : s.simulation.context.store.write (.text name) v = .ok (Table.put name c s.store) :=
      Store.write_of_fits named type value
    rw [Simulation.write, store]
    rfl
  rw [assign, written]
  rfl

private theorem stores_assign {s : Session} {name : String} {v : Value} {c : Content}
    (run : Text.IsRun name.toList) (type : c.type = Store.typeFor v (s.store.value? name))
    (value : c.value = v) : s.Stores name v (s.assign name v) := by
  rw [assign_of_fits run.isName type value]
  refine ⟨?_, ⟨c, type, value, s.store.changes_put name c⟩, rfl⟩
  rw [← type, ← value]
  exact c.admits

private theorem refuses_tell (s : Session) {line reason : String} (same : line = "❌ " ++ reason)
    (solid : Unbroken reason) : s.Refuses (s.tell line) := by
  have unbroken : Unbroken ("❌ " ++ reason) := Unbroken.append (by decide) solid
  subst same
  exact ⟨rfl, reason, rfl, unbroken.lines_eq (by simp), rfl⟩

private theorem refuses_refuse (s : Session) {name reason : String} (run : Text.IsRun name.toList)
    (solid : Unbroken reason) : s.Refuses (s.refuse name reason) := by
  have mark : "❌ Invalid value for " = "❌ " ++ "Invalid value for " := by decide
  have unbroken : Unbroken ("Invalid value for " ++ (name ++ (": " ++ reason))) :=
    Unbroken.append (by decide) (run.unbroken.append (Unbroken.append (by decide) solid))
  refine s.refuses_tell ?_ unbroken
  rw [mark]
  simp only [String.append_assoc]

private theorem refuses_missing (s : Session) (t : VarType) {name : String} (run : Text.IsRun name.toList) :
    s.Refuses (s.tell ("❌ A value is required for " ++ t.name ++ " variable " ++ name)) := by
  have mark : "❌ A value is required for " = "❌ " ++ "A value is required for " := by decide
  have type : Unbroken t.name := by cases t <;> decide
  have unbroken : Unbroken ("A value is required for " ++ (t.name ++ (" variable " ++ name))) :=
    Unbroken.append (by decide) (type.append (Unbroken.append (by decide) run.unbroken))
  refine s.refuses_tell ?_ unbroken
  rw [mark]
  simp only [String.append_assoc]

variable {s : Session} {name : String} {v : Value}

theorem writes_assign (run : Text.IsRun name.toList) (typed : Typed (s.typeOf? name) v)
    (short : v.isLong = false) :
    (s.assign name v).result = .ok () ∧ s.Writes name v (s.assign name v) := by
  obtain ⟨c, type, value⟩ := typed.fits
  have line : Unbroken (name ++ " = " ++ v.plain) :=
    (run.unbroken.append (by decide)).append typed.unbroken
  have stores := stores_assign run type value
  rw [assign_of_fits run.isName type value, tellWritten_of_short _ _ short] at stores ⊢
  exact ⟨rfl, stores, rfl, line.lines_eq (by simp), rfl⟩

private theorem overruns_assign (run : Text.IsRun name.toList) (typed : Typed (s.typeOf? name) v)
    (long : v.isLong = true) : s.Overruns name v (s.assign name v) := by
  obtain ⟨c, type, value⟩ := typed.fits
  have stores := stores_assign run type value
  rw [assign_of_fits run.isName type value, tellWritten_of_long _ _ long] at stores ⊢
  exact ⟨stores, long, rfl, rfl, rfl⟩

theorem setVariable_bare (s : Session) (name : String) :
    s.setVariable name [] = match s.typeOf? name with
      | none | some .bool => s.assign name (.bool false)
      | some t => s.tell ("❌ A value is required for " ++ t.name ++ " variable " ++ name) := rfl

theorem setVariable_words (s : Session) (name w : String) (ws : List String) :
    s.setVariable name (w :: ws) =
      match readValue (s.typeOf? name) (" ".intercalate (w :: ws)) with
      | .error fault => s.refuse name fault.message
      | .ok v => s.assign name v := rfl

variable {words : List String}

theorem setVariable_of_spelled (spelled : s.spelled? name words = some v) :
    s.setVariable name words = s.assign name v := by
  rcases words with _ | ⟨w, ws⟩
  · rw [spelled?, if_pos rfl] at spelled
    split at spelled
    · rename_i truth
      cases spelled
      rw [setVariable_bare]
      rcases truth with type | type
      · rw [type]
      · rw [type]
    · cases spelled
  · rw [spelled?, if_neg (by simp)] at spelled
    rw [setVariable_words]
    split
    · rename_i fault refused
      rw [refused] at spelled
      cases spelled
    · rename_i u read
      rw [read] at spelled
      cases spelled
      rfl

theorem typed_of_spelled (spelled : s.spelled? name words = some v) :
    Typed (s.typeOf? name) v ∧ (v.isLong = true → OpensDuration (" ".intercalate words)) := by
  unfold spelled? at spelled
  split at spelled
  · split at spelled
    · rename_i truth
      cases spelled
      refine ⟨?_, fun long => by cases long⟩
      rcases truth with new | truth
      · exact new ▸ .newTruth false
      · exact truth ▸ .truth false
    · cases spelled
  · rcases reads_value (s.typeOf? name) (" ".intercalate words) with ⟨w, read, typed⟩ | ⟨fault, -, refused⟩
    · rw [read] at spelled
      cases spelled
      exact ⟨typed, opensDuration_of_isLong read⟩
    · rw [refused] at spelled
      cases spelled

theorem refuses_of_unspelled (run : Text.IsRun name.toList) (runs : ∀ w ∈ words, Text.IsRun w.toList)
    (unspelled : s.spelled? name words = none) :
    (s.setVariable name words).result = .ok () ∧ s.Refuses (s.setVariable name words) := by
  rcases words with _ | ⟨w, ws⟩
  · rw [spelled?, if_pos rfl] at unspelled
    rw [setVariable_bare]
    rcases held : s.typeOf? name with _ | t
    · simp [held] at unspelled
    · cases t with
      | bool => simp [held] at unspelled
      | int => exact ⟨rfl, s.refuses_missing .int run⟩
      | real => exact ⟨rfl, s.refuses_missing .real run⟩
      | time => exact ⟨rfl, s.refuses_missing .time run⟩
  · have line := Text.unbroken_intercalate runs
    rw [spelled?, if_neg (by simp)] at unspelled
    rw [setVariable_words]
    rcases reads_value (s.typeOf? name) (" ".intercalate (w :: ws)) with
      ⟨v, read, -⟩ | ⟨fault, complaint, refused⟩
    · rw [read] at unspelled
      cases unspelled
    · rw [refused]
      exact ⟨rfl, s.refuses_refuse run (complaint.unbroken line)⟩

/-- How a set command ends for a name and the words after it. -/
def Settles (s : Session) (name : String) (words : List String) (r : Reply) : Prop :=
  (∃ v, s.spelled? name words = some v ∧
      (v.isLong = false ∧ r.result = .ok () ∧ s.Writes name v r ∨
        OpensDuration (" ".intercalate words) ∧ s.Overruns name v r)) ∨
    s.spelled? name words = none ∧ r.result = .ok () ∧ s.Refuses r

theorem settles_setVariable (s : Session) (run : Text.IsRun name.toList)
    (runs : ∀ w ∈ words, Text.IsRun w.toList) : s.Settles name words (s.setVariable name words) := by
  rcases spelled : s.spelled? name words with _ | v
  · exact .inr ⟨spelled, refuses_of_unspelled run runs spelled⟩
  · obtain ⟨typed, opens⟩ := typed_of_spelled spelled
    rw [setVariable_of_spelled spelled]
    rcases long : v.isLong with _ | _
    · exact .inl ⟨v, spelled, .inl ⟨long, writes_assign run typed long⟩⟩
    · exact .inl ⟨v, spelled, .inr ⟨opens long, overruns_assign run typed long⟩⟩

/-- A command has changed the type of no variable, and has left the variables sound. -/
structure Keeps (s : Session) (r : Reply) : Prop where
  types : ∀ name old, s.store.value? name = some old →
    ∃ new, r.session.store.value? name = some new ∧ new.type = old.type
  sound : s.store.Sound → r.session.store.Sound

private theorem Stores.keeps {r : Reply} (h : s.Stores name v r) (named : Text.isName name = true) :
    s.Keeps r := by
  obtain ⟨c, type, -, changes⟩ := h.entry
  refine ⟨fun other old held => ?_, changes.sound named⟩
  by_cases same : other = name
  · subst same
    rw [held] at type
    exact ⟨c, changes.entry, type⟩
  · exact ⟨old, (changes.others other same).trans held, rfl⟩

private theorem Refuses.keeps {r : Reply} (h : s.Refuses r) : s.Keeps r := by
  refine ⟨?_, ?_⟩ <;> rw [h.session]
  · exact fun name old held => ⟨old, held, rfl⟩
  · exact id

theorem ofLine_set {line word : String} {arguments : List String}
    (words : Text.words line = word :: arguments) (asks : Text.lowerASCII word = "set") :
    Command.ofLine line = .set arguments := by
  rw [Command.ofLine, words]
  simp only [asks]

private theorem Settles.keeps {r : Reply} (h : s.Settles name words r) (named : Text.isName name = true) :
    s.Keeps r := by
  rcases h with ⟨v, -, ⟨-, -, writes⟩ | ⟨-, overruns⟩⟩ | ⟨-, -, refuses⟩
  · exact writes.keeps named
  · exact overruns.keeps named
  · exact refuses.keeps

/-- A set command does not end the session. It writes exactly the variable that it names when the words after
the name spell a value for it, and else it changes nothing and tells an error. It fails only once it has
written an integer that has too many digits to be told, which no text but a duration can spell. No variable
that is there changes its type. -/
theorem set_command_ends (s : Session) {line word : String} {arguments : List String}
    (words : Text.words line = word :: arguments) (asks : Text.lowerASCII word = "set") :
    let r := s.execute (.ofLine line)
    Command.ofLine line ≠ .exit ∧
      ((∃ name rest v, arguments = name :: rest ∧ s.spelled? name rest = some v ∧
          (v.isLong = false ∧ r.result = .ok () ∧ s.Writes name v r ∨
            OpensDuration (" ".intercalate rest) ∧ s.Overruns name v r)) ∨
        (∀ name rest, arguments = name :: rest → s.spelled? name rest = none) ∧
          r.result = .ok () ∧ s.Refuses r) ∧
      s.Keeps r := by
  intro r
  have command := ofLine_set words asks
  have runs : ∀ w ∈ arguments, Text.IsRun w.toList := fun w hw =>
    Text.isRun_of_mem_words (words ▸ List.mem_cons_of_mem word hw)
  have goesOn : Command.ofLine line ≠ .exit := by
    rw [command]
    exact Command.noConfusion
  have reply : r = s.execute (.set arguments) := by rw [← command]
  rcases arguments with _ | ⟨name, rest⟩
  · have usage : "❌ Usage: set VAR VALUE" = "❌ " ++ "Usage: set VAR VALUE" := by decide
    have refuses : s.Refuses r := by
      rw [reply]
      exact s.refuses_tell usage (by decide)
    have unnamed : ∀ name rest, ([] : List String) = name :: rest → s.spelled? name rest = none :=
      fun _ _ none => by cases none
    exact ⟨goesOn, .inr ⟨unnamed, by rw [reply]; rfl, refuses⟩, refuses.keeps⟩
  · obtain ⟨run, runs⟩ := List.forall_mem_cons.mp runs
    have settles : s.Settles name rest r := reply ▸ s.settles_setVariable run runs
    refine ⟨goesOn, ?_, settles.keeps run.isName⟩
    rcases settles with ⟨v, spelled, ends⟩ | ⟨nothing, refused⟩
    · exact .inl ⟨name, rest, v, rfl, spelled, ends⟩
    · have unspelled : ∀ n ws, name :: rest = n :: ws → s.spelled? n ws = none := by
        rintro _ _ ⟨⟩
        exact nothing
      exact .inr ⟨unspelled, refused⟩

/-- A number in digits of two scripts is written; a text that spells no integer is refused. -/
theorem count_is_set :
    let s := start {} {} { id := "bench", elements := [], connections := [] } false
    let fits := "  SeT COUNT ４_2 "
    let unfit := "set\tCOUNT 4.2"
    (Text.words fits = ["SeT", "COUNT", "４_2"] ∧ Text.lowerASCII "SeT" = "set" ∧
      s.Writes "COUNT" (.int 42) (s.execute (.ofLine fits))) ∧
    Text.words unfit = ["set", "COUNT", "4.2"] ∧ Text.lowerASCII "set" = "set" ∧
      s.Refuses (s.execute (.ofLine unfit)) := by
  intro s fits unfit
  have fitWords : Text.words fits = ["SeT", "COUNT", "４_2"] := by decide
  have unfitWords : Text.words unfit = ["set", "COUNT", "4.2"] := by decide
  have asks : Text.lowerASCII "SeT" = "set" ∧ Text.lowerASCII "set" = "set" := by decide
  have spelled : s.spelled? "COUNT" ["４_2"] = some (.int 42) ∧ s.spelled? "COUNT" ["4.2"] = none :=
    ⟨rfl, rfl⟩
  have number : ¬ OpensDuration (" ".intercalate ["４_2"]) := by
    rw [← looksLikeDuration_iff]
    decide
  refine ⟨⟨fitWords, asks.1, ?_⟩, unfitWords, asks.2, ?_⟩
  · obtain ⟨-, ⟨name, rest, v, same, given, ⟨-, -, writes⟩ | ⟨opens, -⟩⟩ | ⟨nothing, -⟩, -⟩ :=
      s.set_command_ends fitWords asks.1
    · cases same
      cases spelled.1.symm.trans given
      exact writes
    · cases same
      exact absurd opens number
    · cases spelled.1.symm.trans (nothing _ _ rfl)
  · obtain ⟨-, ⟨name, rest, v, same, given, -⟩ | ⟨-, -, refuses⟩, -⟩ :=
      s.set_command_ends unfitWords asks.2
    · cases same
      cases spelled.2.symm.trans given
    · exact refuses

/-- A duration in hours, of as many nines as there may be digits. -/
def longestDuration : String :=
  String.ofList ('T' :: '#' :: (List.replicate Number.digitLimit '9' ++ ['h']))

def longestMilliseconds : Nat := (10 ^ Number.digitLimit - 1) * 3600000

private theorem isRun_longestDuration : Text.IsRun longestDuration.toList := by
  refine ⟨by simp [longestDuration], fun c hc => ?_⟩
  simp only [longestDuration, String.toList_ofList, List.mem_cons, List.mem_append, List.mem_replicate,
    List.not_mem_nil, or_false] at hc
  rcases hc with rfl | rfl | ⟨-, rfl⟩ | rfl <;> decide

private theorem trim_longestDuration : (Text.trim longestDuration).toList =
    'T' :: '#' :: (List.replicate Number.digitLimit '9' ++ ['h']) := by
  rw [Text.trim, String.toList_ofList, Text.trimBy_eq_self isRun_longestDuration.solid, longestDuration,
    String.toList_ofList]

private theorem readValue_longestDuration :
    readValue (some .time) longestDuration = .ok (.int longestMilliseconds) := by
  have opens : OpensDuration longestDuration := ⟨_, .inl trim_longestDuration⟩
  have nine : Text.digitValue? '9' = some 9 := by decide
  have nines : ∀ c ∈ List.replicate Number.digitLimit '9', (Text.digitValue? c).isSome = true :=
    fun c hc => (List.mem_replicate.mp hc).2 ▸ rfl
  have value : Number.ofDigits (List.replicate Number.digitLimit 9) = 10 ^ Number.digitLimit - 1 :=
    Nat.eq_sub_of_add_eq (Number.ofDigits_nines Number.digitLimit)
  have some : List.replicate Number.digitLimit '9' ≠ [] := by
    rw [Ne, List.replicate_eq_nil_iff]
    decide
  have denotes : Preset.Denotes (Text.trim longestDuration).toList longestMilliseconds := by
    have literal := Preset.Denotes.literal some
      (by rw [List.map_replicate, List.map_replicate, nine]) .hours
    rwa [value, ← trim_longestDuration] at literal
  have counted : Preset.literalLength (Text.trim longestDuration).toList = Number.digitLimit := by
    rw [trim_longestDuration, Preset.literalLength, List.drop_succ_cons, List.drop_succ_cons,
      List.drop_zero, List.takeWhile_append_of_pos nines, List.takeWhile_cons_of_neg (by decide),
      List.append_nil, List.length_replicate]
  rw [opens.readValue (.inl rfl), readDuration_of_denotes denotes, counted, if_neg (Nat.lt_irrefl _)]

private theorem isLong_longestMilliseconds : (Value.int longestMilliseconds).isLong = true := by
  have least : 1 < 10 ^ Number.digitLimit := Nat.one_lt_pow (by decide) (by decide)
  have enough (n : Nat) (h : 1 < n) : n ≤ (n - 1) * 3600000 := by omega
  rw [Value.isLong, Number.isLong_int_iff, Int.natAbs_natCast]
  unfold longestMilliseconds
  exact enough _ least

/-- A variable of a time takes the longest duration that is read. Its milliseconds cannot be told, so the
command fails with the variable written. -/
theorem longest_duration_overruns :
    let s := start {} {} { id := "bench", elements := [], connections := [] } false
    let line := " ".intercalate ["set", "TIMER", longestDuration]
    let r := s.execute (.ofLine line)
    s.store.Sound ∧ Text.words line = ["set", "TIMER", longestDuration] ∧
      s.Overruns "TIMER" (.int longestMilliseconds) r ∧ r.result ≠ .ok () := by
  have timer : Text.IsRun "TIMER".toList := Text.isRun_of_allWord (by decide) (by decide)
  intro s line r
  have sound : s.store.Sound := ⟨(Store.valid_iff _).mpr (by decide), by decide⟩
  have runs : ∀ w ∈ ["set", "TIMER", longestDuration], Text.IsRun w.toList := by
    simp only [List.forall_mem_cons]
    exact ⟨Text.isRun_of_allWord (by decide) (by decide), timer, isRun_longestDuration, by simp⟩
  have words : Text.words line = ["set", "TIMER", longestDuration] := Text.words_intercalate runs
  have spelled : s.spelled? "TIMER" [longestDuration] = some (.int longestMilliseconds) := by
    have type : s.typeOf? "TIMER" = some .time := by decide
    rw [spelled?, if_neg (List.cons_ne_nil _ _), type, String.intercalate_singleton,
      readValue_longestDuration]
    rfl
  have overruns : s.Overruns "TIMER" (.int longestMilliseconds) r := by
    have reply : r = s.setVariable "TIMER" [longestDuration] := by
      show s.execute (.ofLine line) = _
      rw [ofLine_set words (by decide)]
      rfl
    rw [reply, setVariable_of_spelled spelled]
    exact overruns_assign timer (typed_of_spelled spelled).1 isLong_longestMilliseconds
  refine ⟨sound, words, overruns, ?_⟩
  rw [overruns.result]
  exact fun same => by cases same

end Session

end RungLogic
