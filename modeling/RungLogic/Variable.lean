import RungLogic.Error
import RungLogic.Preset
import RungLogic.Signal

/-!
Variables: named contents of one of four types. A store keeps them in the order in which they were
declared. A declaration replaces content and type; a write keeps the type and is refused when the
value does not fit it. A refused call leaves the store as it was.
-/

set_option autoImplicit false
set_option relaxedAutoImplicit false

namespace RungLogic

/-- What a variable holds; a type admits only its own contents. -/
inductive Content where
  | truth (b : Bool)
  | whole (i : Int)
  | measure (n : Number)
  | span (n : Number)
  | literal (s : String)

namespace Content

def type : Content → VarType
  | truth _ => .bool
  | whole _ => .int
  | measure _ => .real
  | span _ => .time
  | literal _ => .time

def value : Content → Value
  | truth b => .bool b
  | whole i => .int i
  | measure n => .num n
  | span n => .num n
  | literal s => .text s

/-- The content of that type that a value makes, if it fits. -/
def ofValue? : VarType → Value → Option Content
  | .bool, .bool b => some (truth b)
  | .int, .num (.int i) => some (whole i)
  | .real, .num n => some (measure n)
  | .time, .num n => some (span n)
  | .time, .text s => some (literal s)
  | _, _ => none

/-- What a block reads from a content; a literal is read as its milliseconds. -/
def signal : Content → Signal
  | truth b => .truth b
  | whole i => .num (.int i)
  | measure n => .num n
  | span n => .num n
  | literal s => .num (.int (Preset.textDuration s))

theorem type_of_ofValue? {t : VarType} {v : Value} {c : Content} (h : ofValue? t v = some c) :
    c.type = t := by
  unfold ofValue? at h
  split at h <;> simp_all <;> subst h <;> rfl

theorem value_of_ofValue? {t : VarType} {v : Value} {c : Content} (h : ofValue? t v = some c) :
    c.value = v := by
  unfold ofValue? at h
  split at h <;> simp_all <;> subst h <;> rfl

theorem ofValue?_value (c : Content) : ofValue? c.type c.value = some c := by
  cases c <;> rfl

end Content

/-- The type that a value has when nothing else says so. -/
def VarType.ofValue : Value → VarType
  | .bool _ => .bool
  | .num (.int _) => .int
  | .num (.real _) => .real
  | _ => .time

def VarType.named? (v : Value) : Option VarType := v.text?.bind VarType.ofName?

theorem VarType.named?_name (t : VarType) : VarType.named? (.text t.name) = some t := by
  cases t <;> decide

def Variable.faults (name type value : Value) : List Fault :=
  (if name.isName then [] else [.variableUnnamed]) ++
    (match VarType.named? type with
      | none => [.unknownType type]
      | some t => if (Content.ofValue? t value).isSome then [] else [.unfitValue t name value])

/-- The name and the content of a variable, or all that is wrong with it. -/
def Variable.make (name type value : Value) : Except Error (String × Content) :=
  match name.name?, (VarType.named? type).bind (Content.ofValue? · value) with
  | some name, some content => .ok (name, content)
  | _, _ => .error (.invalid .variable (Variable.faults name type value))

/-- Variables in the order in which they were declared. -/
abbrev Store := Table Content

namespace Store

/-- Declares a variable, or declares it again. -/
def declare (name type value : Value) (s : Store) : Except Error Store :=
  (Variable.make name type value).map fun p => Table.put p.1 p.2 s

/-- The variable that a value names; only values without parts can be asked for. -/
def find (name : Value) (s : Store) : Except Error (Option Content) :=
  if name.canBeKey then .ok (name.text?.bind fun n => Table.value? n s) else .error .shape

/-- Writes a variable; one that is not there is declared with the type of the value. -/
def write (name value : Value) (s : Store) : Except Error Store := do
  match ← s.find name with
  | none => s.declare name (.text (VarType.ofValue value).name) value
  | some old =>
    match Content.ofValue? old.type value with
    | some content => .ok (Table.put name.plain content s)
    | none => .error (.invalid .variable [.unfitValue old.type name value])

/-- What a variable of that name holds after a write, from what it held before: a variable keeps its
type, and a new one has the type of the value. -/
def overwritten (name : String) (value : Value) : Option Content → Option Content
  | none => if Text.isName name then Content.ofValue? (.ofValue value) value else none
  | some old => some ((Content.ofValue? old.type value).getD old)

theorem write_text (s : Store) (name : String) (value : Value) :
    (∃ c, s.write (.text name) value = .ok (Table.put name c s) ∧
        overwritten name value (s.value? name) = some c) ∨
      ((∃ fault, s.write (.text name) value = .error fault) ∧
        overwritten name value (s.value? name) = s.value? name) := by
  have hfind : s.find (.text name) = .ok (s.value? name) := rfl
  rw [write, hfind]
  rcases hold : s.value? name with _ | old
  · simp only [bind, Except.bind, declare, Variable.make, Value.name?, VarType.named?_name,
      Option.bind_some, overwritten]
    by_cases named : Text.isName name = true
    · rcases hfits : Content.ofValue? (.ofValue value) value with _ | c
      · exact .inr ⟨⟨_, by rw [if_pos named]; rfl⟩, if_pos named⟩
      · exact .inl ⟨c, by rw [if_pos named]; rfl, if_pos named⟩
    · exact .inr ⟨⟨_, by rw [if_neg named]; rfl⟩, if_neg named⟩
  · rcases hfits : Content.ofValue? old.type value with _ | c
    · refine .inr ⟨⟨.invalid .variable [.unfitValue old.type (.text name) value], ?_⟩, ?_⟩
      · simp only [bind, Except.bind, hfits]
      · simp only [overwritten, hfits, Option.getD_none]
    · refine .inl ⟨c, ?_, ?_⟩
      · simp only [bind, Except.bind, hfits]
        rfl
      · simp only [overwritten, hfits, Option.getD_some]

/-- The variable of a definition, which is a record with name, type and value. -/
def define : Value → Except Error (String × Content)
  | .record fields =>
    Variable.make (Value.field "name" fields) (Value.field "type" fields)
      (Value.field "value" fields)
  | _ => .error .part

/-- The variables of a list of definitions; of those with one name the last counts, at the first
place. -/
def ofDefinitions (definitions : List Value) : Except Error Store :=
  (definitions.mapM define).map Table.ofPairs

def snapshot (s : Store) : Table Value := s.map fun p => (p.1, p.2.value)

def definition (name : String) (type : VarType) (value : Value) : Value :=
  .record [("name", .text name), ("type", .text type.name), ("value", value)]

/-- The variables with which a session begins when nothing else is said. -/
def standardDefinitions : List Value :=
  [definition "X1" .bool (.bool false), definition "X2" .bool (.bool false),
    definition "X3" .bool (.bool false), definition "Y1" .bool (.bool false),
    definition "Y2" .bool (.bool false), definition "COUNT" .int (.int 0),
    definition "TIMER" .time (.int 0)]

def standard : Store :=
  [("X1", .truth false), ("X2", .truth false), ("X3", .truth false), ("Y1", .truth false),
    ("Y2", .truth false), ("COUNT", .whole 0), ("TIMER", .span (.int 0))]

theorem ofDefinitions_standard : ofDefinitions standardDefinitions = .ok standard := by
  rfl

end Store

end RungLogic
