import RungLogic.Proofs.Network.Parts
import RungLogic.Proofs.Tables
import RungLogic.Variable

/-!
Stores of variables under any sequence of calls. A declaration and a write make a variable by the same
checks and put it into the store; a write differs only in the type that it asks for. So every variable is
named and fits its type, whatever has been called, and what is refused leaves the store as it was, also
where the calls act on it in place.
-/

set_option autoImplicit false
set_option relaxedAutoImplicit false

namespace RungLogic

/-- The result, or what was there before when there is none. -/
def orStay {α : Type} (before : α) : Except Error α → α
  | .ok after => after
  | .error _ => before

/-- What a variable of a type may hold. -/
inductive VarType.Admits : VarType → Value → Prop
  | truth (b : Bool) : Admits .bool (.bool b)
  | whole (i : Int) : Admits .int (.num (.int i))
  | measure (n : Number) : Admits .real (.num n)
  | span (n : Number) : Admits .time (.num n)
  | literal (s : String) : Admits .time (.text s)

theorem Content.admits (c : Content) : c.type.Admits c.value := by
  cases c <;> constructor

theorem Content.ofValue?_eq_some_iff {t : VarType} {v : Value} {c : Content} :
    Content.ofValue? t v = some c ↔ c.type = t ∧ c.value = v := by
  constructor
  · intro h
    exact ⟨type_of_ofValue? h, value_of_ofValue? h⟩
  · rintro ⟨rfl, rfl⟩
    exact c.ofValue?_value

namespace Variable

private theorem make_ok_iff {name type value : Value} {key : String} {c : Content} :
    make name type value = .ok (key, c) ↔
      (name = .text key ∧ Text.isName key = true) ∧ VarType.named? type = some c.type ∧
        c.value = value := by
  have content : (VarType.named? type).bind (Content.ofValue? · value) = some c ↔
      VarType.named? type = some c.type ∧ c.value = value := by
    rw [Option.bind_eq_some_iff]
    constructor
    · rintro ⟨t, named, fits⟩
      obtain ⟨rfl, same⟩ := Content.ofValue?_eq_some_iff.mp fits
      exact ⟨named, same⟩
    · rintro ⟨named, same⟩
      exact ⟨c.type, named, Content.ofValue?_eq_some_iff.mpr ⟨rfl, same⟩⟩
  rw [← content]
  constructor
  · intro h
    unfold make at h
    split at h
    · rename_i named fits
      cases h
      exact ⟨Value.name?_eq_some named, fits⟩
    · cases h
  · rintro ⟨⟨rfl, named⟩, fits⟩
    rw [make, Value.name?_text_of_isName named, fits]

private theorem faults_eq_nil_iff (name : String) (c : Content) :
    faults (.text name) (.text c.type.name) c.value = [] ↔ Text.isName name = true := by
  simp only [faults, VarType.named?_name, Content.ofValue?_value, Option.isSome_some,
    if_true, List.append_nil, Value.isName, Value.name?]
  by_cases h : Text.isName name = true <;> simp [h]

end Variable

namespace Store

/-- Every variable passes its own check: it is named, and its value fits its type. -/
def Valid (s : Store) : Prop :=
  ∀ p ∈ s, Variable.faults (.text p.1) (.text p.2.type.name) p.2.value = []

variable {s later : Store} {name type value : Value} {key : String} {c : Content}

theorem valid_iff (s : Store) : s.Valid ↔ ∀ p ∈ s, Text.isName p.1 = true := by
  simp only [Valid, Variable.faults_eq_nil_iff]

instance (s : Store) : Decidable s.Valid :=
  decidable_of_iff (∀ p ∈ s, Text.isName p.1 = true) s.valid_iff.symm

private theorem Valid.put (h : s.Valid) {name : String} (named : Text.isName name = true) (c : Content) :
    Valid (Table.put name c s) := by
  rw [valid_iff] at h ⊢
  intro p hp
  rcases Table.mem_put hp with rfl | hp
  · exact named
  · exact h p hp

theorem declare_ok_iff : s.declare name type value = .ok later ↔ ∃ key c,
    (name = .text key ∧ Text.isName key = true) ∧
      (VarType.named? type = some c.type ∧ c.value = value) ∧ later = Table.put key c s := by
  rw [declare]
  constructor
  · intro h
    rcases made : Variable.make name type value with fault | ⟨key, c⟩
    · rw [made] at h
      cases h
    · rw [made] at h
      obtain ⟨named, fits⟩ := Variable.make_ok_iff.mp made
      exact ⟨key, c, named, fits, (Except.ok.inj h).symm⟩
  · rintro ⟨key, c, named, fits, rfl⟩
    rw [Variable.make_ok_iff.mpr ⟨named, fits⟩]
    rfl

private theorem Valid.declare (h : s.Valid) (declared : s.declare name type value = .ok later) :
    later.Valid := by
  obtain ⟨key, c, ⟨-, named⟩, -, rfl⟩ := declare_ok_iff.mp declared
  exact h.put named c

/-- The type that a write asks for: that of the variable, or for a new one that of the value. -/
def typeFor (value : Value) : Option Content → VarType
  | some old => old.type
  | none => .ofValue value

/-- In a valid store a write is a declaration with the type that the variable has. -/
private theorem Valid.write_eq (h : s.Valid) (name value : Value) :
    s.write name value = (s.find name).bind fun old =>
      s.declare name (.text (typeFor value old).name) value := by
  unfold Store.write
  rcases hfind : s.find name with fault | _ | old
  · rfl
  · rfl
  · have held : (name.text?.bind fun n => Table.value? n s) = some old := by
      unfold find at hfind
      split at hfind
      · exact Except.ok.inj hfind
      · cases hfind
    obtain ⟨key, text, found⟩ := Option.bind_eq_some_iff.mp held
    obtain rfl := Value.eq_text_of_text? text
    have named : Text.isName key = true := (valid_iff s).mp h _ (Table.mem_of_value? found)
    simp only [bind, Except.bind, Store.declare, Variable.make, typeFor, VarType.named?_name,
      Value.name?_text_of_isName named, Option.bind_some]
    rcases fits : Content.ofValue? old.type value with _ | c
    · simp [Variable.faults, VarType.named?_name, Value.isName_text, named, fits, Except.map]
    · rfl

private theorem Valid.declare_of_write (h : s.Valid) (written : s.write name value = .ok later) :
    ∃ old, s.find name = .ok old ∧
      s.declare name (.text (typeFor value old).name) value = .ok later := by
  rw [h.write_eq] at written
  rcases hfind : s.find name with fault | old
  · rw [hfind] at written
    cases written
  · rw [hfind] at written
    exact ⟨old, rfl, written⟩

theorem Valid.write (h : s.Valid) (written : s.write name value = .ok later) : later.Valid := by
  obtain ⟨old, -, declared⟩ := h.declare_of_write written
  exact h.declare declared

/-- What makes or changes variables. -/
inductive Call where
  /-- The store begins anew with the variables of definitions. -/
  | define (definitions : List Value)
  | declare (name type value : Value)
  | write (name value : Value)

def serve (s : Store) : Call → Except Error Store
  | .define definitions => ofDefinitions definitions
  | .declare name type value => s.declare name type value
  | .write name value => s.write name value

/-- The store after a call; a call that is refused changes nothing. -/
def afterCall (s : Store) (call : Call) : Store := orStay s (s.serve call)

/-- An action on the store in place: what it has changed before it fails stays changed. -/
abbrev Action := ExceptT Error (StateM Store)

/-- Makes the variable before it is put into the store. -/
def declareInPlace (name type value : Value) : Action Unit := do
  let (key, content) ← Variable.make name type value
  modify (Table.put key content)

/-- Looks the variable up, checks the value with its type, and only then replaces the value. -/
def writeInPlace (name value : Value) : Action Unit := do
  let old ← (← get).find name
  declareInPlace name (.text (typeFor value old).name) value

/-- Makes all variables before the first of them is put into the empty store. -/
def defineInPlace (definitions : List Value) : Action Unit := do
  let entries ← (definitions.mapM define : Except Error (List (String × Content)))
  set ([] : Store)
  entries.forM fun (key, content) => modify (Table.put key content)

def Call.perform : Call → Action Unit
  | .define definitions => defineInPlace definitions
  | .declare name type value => declareInPlace name type value
  | .write name value => writeInPlace name value

/-- What an action gives and leaves that does what a call does and leaves the store as it was when it is
refused. -/
def settled (s : Store) : Except Error Store → Except Error Unit × Store
  | .ok after => (.ok (), after)
  | .error fault => (.error fault, s)

private theorem run_declareInPlace (s : Store) (name type value : Value) :
    (declareInPlace name type value).run s = s.settled (s.declare name type value) := by
  rw [Store.declare, declareInPlace]
  rcases Variable.make name type value with fault | ⟨key, c⟩ <;> rfl

private theorem Valid.run_writeInPlace (h : s.Valid) (name value : Value) :
    (writeInPlace name value).run s = s.settled (s.write name value) := by
  rw [h.write_eq]
  have run : (writeInPlace name value).run s = match s.find name with
      | .ok old => (declareInPlace name (.text (typeFor value old).name) value).run s
      | .error fault => (.error fault, s) := by
    show (liftM (s.find name) >>= _ : Action Unit).run s = _
    rcases s.find name with fault | old <;> rfl
  rw [run]
  rcases s.find name with fault | old
  · rfl
  · exact run_declareInPlace s name _ value

private theorem run_defineInPlace (s : Store) (definitions : List Value) :
    (defineInPlace definitions).run s = s.settled (ofDefinitions definitions) := by
  have entered (pairs : List (String × Content)) (t : Store) :
      (pairs.forM (m := Action) fun p => modify (Table.put p.1 p.2)).run t =
        (.ok (), pairs.foldl (fun t p => Table.put p.1 p.2 t) t) := by
    induction pairs generalizing t with
    | nil => rfl
    | cons p rest ih => exact ih (Table.put p.1 p.2 t)
  rw [defineInPlace, ofDefinitions]
  rcases hmap : definitions.mapM define with fault | pairs
  · rfl
  · exact entered pairs []

/-- On a valid store each call does in place what it does to the store as a whole; so a call that is
refused has changed nothing. -/
private theorem Valid.run_perform (h : s.Valid) (call : Call) :
    call.perform.run s = s.settled (s.serve call) := by
  cases call with
  | define definitions => exact s.run_defineInPlace definitions
  | declare name type value => exact s.run_declareInPlace name type value
  | write name value => exact h.run_writeInPlace name value

private theorem named_of_define {definition : Value} {p : String × Content}
    (h : define definition = .ok p) :
    Text.isName p.1 = true := by
  cases definition with
  | record fields => exact (Variable.make_ok_iff.mp h).1.2
  | _ => cases h

private theorem named_of_mapM_define {definitions : List Value} {pairs : List (String × Content)}
    (h : definitions.mapM define = .ok pairs) : ∀ p ∈ pairs, Text.isName p.1 = true := by
  induction definitions generalizing pairs with
  | nil =>
    cases h
    simp
  | cons definition rest ih =>
    rw [List.mapM_cons] at h
    rcases hfirst : define definition with fault | first
    · rw [hfirst] at h
      cases h
    · rcases hrest : rest.mapM define with fault | others
      · rw [hfirst, hrest] at h
        cases h
      · rw [hfirst, hrest] at h
        cases h
        exact List.forall_mem_cons.mpr ⟨named_of_define hfirst, ih hrest⟩

/-- What holds of the stores that calls lead to: each variable passes its check, and each name is there
once. -/
structure Sound (s : Store) : Prop where
  valid : s.Valid
  nodup : s.names.Nodup

private theorem sound_nil : Sound [] := ⟨fun _ hp => (by cases hp), List.nodup_nil⟩

private theorem Sound.put (h : s.Sound) (named : Text.isName key = true) (c : Content) :
    Sound (Table.put key c s) :=
  ⟨h.valid.put named c, Table.nodup_names_put h.nodup⟩

theorem sound_of_ofDefinitions {definitions : List Value} (h : ofDefinitions definitions = .ok later) :
    later.Sound := by
  have entered (pairs : List (String × Content)) (named : ∀ p ∈ pairs, Text.isName p.1 = true)
      {t : Store} (sound : t.Sound) :
      Sound (pairs.foldl (fun t p => Table.put p.1 p.2 t) t) := by
    induction pairs generalizing t with
    | nil => exact sound
    | cons p rest ih =>
      obtain ⟨first, others⟩ := List.forall_mem_cons.mp named
      exact ih others (sound.put first p.2)
  rw [ofDefinitions] at h
  rcases hmap : definitions.mapM define with fault | pairs
  · rw [hmap] at h
    cases h
  · rw [hmap] at h
    obtain rfl := Except.ok.inj h
    exact entered pairs (named_of_mapM_define hmap) sound_nil

private theorem Sound.declare (h : s.Sound) (declared : s.declare name type value = .ok later) :
    later.Sound := by
  obtain ⟨key, c, ⟨-, named⟩, -, rfl⟩ := declare_ok_iff.mp declared
  exact h.put named c

private theorem Sound.serve (h : s.Sound) {call : Call} (served : s.serve call = .ok later) :
    later.Sound := by
  cases call with
  | define definitions => exact sound_of_ofDefinitions served
  | declare name type value => exact h.declare served
  | write name value =>
    obtain ⟨old, -, declared⟩ := h.valid.declare_of_write served
    exact h.declare declared

/-- The induction is on the calls; one that is refused leaves the store. -/
private theorem Sound.calls (h : s.Sound) (calls : List Call) : (calls.foldl afterCall s).Sound := by
  induction calls generalizing s with
  | nil => exact h
  | cons call rest ih =>
    refine ih ?_
    rcases served : s.serve call with fault | later
    · rw [afterCall, served]
      exact h
    · rw [afterCall, served]
      exact h.serve served

/-- One variable is new or has another content; all others are as they were, and the names keep their
order, with a new one at the end. -/
structure Changes (s : Store) (key : String) (c : Content) (later : Store) : Prop where
  entry : later.value? key = some c
  others : ∀ other, other ≠ key → later.value? other = s.value? other
  kept : key ∈ s.names → later.names = s.names
  new : key ∉ s.names → later = s ++ [(key, c)]

theorem changes_put (s : Store) (key : String) (c : Content) : s.Changes key c (Table.put key c s) := by
  refine ⟨Table.value?_put_self key c s, fun other ne => Table.value?_put_of_ne ne c s, ?_, ?_⟩
  · intro member
    exact Table.names_put_of_has (Table.has_iff.mpr member) c
  · intro fresh
    exact Table.put_of_not_has (Bool.eq_false_iff.mpr fun has => fresh (Table.has_iff.mp has)) c

/-- Whatever is called, in whatever order, refused calls included: each variable has a name of its own
under which it is found, and holds what its type admits. A call that is refused leaves the store as it
was, also where it acts in place. A declaration and a write that are not refused change one entry; a
write keeps the type of a variable that is there. -/
theorem calls_well_typed (calls : List Call) :
    let s := calls.foldl afterCall []
    (s.names.Nodup ∧ ∀ p ∈ s, s.find (.text p.1) = .ok (some p.2) ∧ Text.isName p.1 = true ∧
      p.2.type.Admits p.2.value) ∧
    (∀ call fault, s.serve call = .error fault → call.perform.run s = (.error fault, s)) ∧
    (∀ call later, s.serve call = .ok later → call.perform.run s = (.ok (), later)) ∧
    (∀ name type value later, s.declare name type value = .ok later → ∃ key c, name = .text key ∧
      VarType.named? type = some c.type ∧ c.value = value ∧ s.Changes key c later) ∧
    ∀ name value later, s.write name value = .ok later → ∃ key c, name = .text key ∧
      c.type = typeFor value (s.value? key) ∧ c.value = value ∧ s.Changes key c later := by
  intro s
  have sound : s.Sound := sound_nil.calls calls
  refine ⟨⟨sound.nodup, ?_⟩, ?_, ?_, ?_, ?_⟩
  · intro p hp
    have found : s.value? p.1 = some p.2 := Table.value?_of_mem sound.nodup hp
    exact ⟨congrArg Except.ok found, (valid_iff s).mp sound.valid p hp, p.2.admits⟩
  · intro call fault refused
    rw [sound.valid.run_perform, refused]
    rfl
  · intro call later served
    rw [sound.valid.run_perform, served]
    rfl
  · intro name type value later declared
    obtain ⟨key, c, ⟨named, -⟩, ⟨type, value⟩, rfl⟩ := declare_ok_iff.mp declared
    exact ⟨key, c, named, type, value, s.changes_put key c⟩
  · intro name value later written
    obtain ⟨old, found, declared⟩ := sound.valid.declare_of_write written
    obtain ⟨key, c, ⟨rfl, -⟩, ⟨type, value⟩, rfl⟩ := declare_ok_iff.mp declared
    obtain rfl : s.value? key = old := Except.ok.inj found
    rw [VarType.named?_name] at type
    exact ⟨key, c, rfl, (Option.some.inj type).symm, value, s.changes_put key c⟩

/-- A tank with a switch and a level; a text is no level, and neither is a definition without a name. -/
def tank : List Call :=
  [.declare (.text "PUMP") (.text "BOOL") (.bool true), .write (.text "LEVEL") (.num (.int 3)),
    .write (.text "LEVEL") (.text "high"), .write (.list []) .null, .define [.record []]]

/-- The level keeps its type: a text is refused, another number is written where the level stands. -/
theorem tank_keeps_level :
    let s := tank.foldl afterCall []
    let refused : Call := .write (.text "LEVEL") (.text "high")
    s.names = ["PUMP", "LEVEL"] ∧
    (∃ fault, s.serve refused = .error fault ∧ refused.perform.run s = (.error fault, s)) ∧
    ∃ later c, s.write (.text "LEVEL") (.num (.int 4)) = .ok later ∧ c.type = .int ∧
      c.value = .num (.int 4) ∧ s.Changes "LEVEL" c later := by
  intro s refused
  obtain ⟨-, failing, -, -, writing⟩ := calls_well_typed tank
  obtain ⟨key, c, same, type, value, changes⟩ :=
    writing (.text "LEVEL") (.num (.int 4)) [("PUMP", .truth true), ("LEVEL", .whole 4)] rfl
  obtain rfl := Value.text.inj same
  exact ⟨rfl, ⟨_, rfl, failing refused _ rfl⟩, _, c, rfl, type, value, changes⟩

end Store

end RungLogic
