import RungLogic.Proofs.Instruction.Document
import RungLogic.Proofs.Network.Reading

/-!
What reading a program from a document reports. A document that does not have the form of a program is
refused for that alone. In one that has it each entry is judged by itself, and a malformed one is told at
its place. Only when no entry is malformed is there a program, with one instruction for each entry; it is
written as the normal form of the document.
-/

set_option autoImplicit false
set_option relaxedAutoImplicit false

namespace RungLogic

open Document

namespace Instruction

/-- `Reads v i` says that the entry `v` holds the parts of `i`; an operand or a modifier that `i` does not
have is null or missing. -/
inductive Reads : Value → Instruction → Prop
  | entry {fields : Table Value} {i : Instruction} :
      Table.value? "operator" fields = some (.text i.operator.name) →
      Value.field "operand" fields = .ofText? i.operand →
      Value.field "modifier" fields = .ofText? i.modifier → i.Valid → Reads (.record fields) i

/-- What is wrong with an entry by itself: it is no record, its operator is missing or none, its operand is
neither null nor a text, or its modifier is neither null nor a name. -/
inductive Malformed : Value → Prop
  | notARecord {v : Value} : (∀ fields, v ≠ .record fields) → Malformed v
  | noOperator {fields : Table Value} :
      Table.value? "operator" fields = none → Malformed (.record fields)
  | operator {fields : Table Value} {given : Value} : Table.value? "operator" fields = some given →
      (∀ o : Operator, given ≠ .text o.name) → Malformed (.record fields)
  | operand {fields : Table Value} :
      (∀ a, Value.field "operand" fields ≠ .ofText? a) → Malformed (.record fields)
  | modifier {fields : Table Value} :
      (∀ m : Option String, (∀ s ∈ m, Text.isName s = true) →
        Value.field "modifier" fields ≠ .ofText? m) → Malformed (.record fields)

private theorem operatorOf?_iff (v : Value) (o : Operator) : operatorOf? v = some o ↔ v = .text o.name := by
  constructor
  · intro known
    obtain ⟨word, text, named⟩ := Option.bind_eq_some_iff.mp known
    rw [Value.eq_text_of_text? text, Operator.name_of_ofName? named]
  · rintro rfl
    exact Operator.ofName?_name o

private theorem partOf?_text_iff (v : Value) (a : Option String) :
    partOf? Value.text? v = some a ↔ v = .ofText? a := by
  cases v <;> cases a <;> simp [partOf?, Value.text?, Value.ofText?]

private theorem partOf?_name_iff (v : Value) (m : Option String) :
    partOf? Value.name? v = some m ↔ v = .ofText? m ∧ ∀ s ∈ m, Text.isName s = true := by
  cases v with
  | text s =>
    cases m with
    | none => simp [partOf?, Value.ofText?, Value.name?]
    | some t =>
      simp only [partOf?, Value.ofText?, Option.map_eq_some_iff, Option.some.injEq, exists_eq_right,
        Value.text.injEq, Option.mem_def, forall_eq']
      constructor
      · intro named
        obtain ⟨same, named⟩ := Value.name?_eq_some named
        exact ⟨Value.text.inj same, named⟩
      · rintro ⟨rfl, named⟩
        exact Value.name?_text_of_isName named
  | _ => cases m <;> simp [partOf?, Value.name?, Value.ofText?]

private theorem ofValues_ok_iff (operator operand modifier : Value) (i : Instruction) :
    ofValues operator operand modifier = .ok i ↔
      operator = .text i.operator.name ∧ operand = .ofText? i.operand ∧
        modifier = .ofText? i.modifier ∧ i.Valid := by
  rw [← operatorOf?_iff, ← partOf?_text_iff, Valid, ← partOf?_name_iff, ofValues]
  obtain ⟨o, a, m⟩ := i
  constructor
  · intro made
    split at made
    · rename_i ho ha hm
      cases made
      exact ⟨ho, ha, hm⟩
    · cases made
  · rintro ⟨ho, ha, hm⟩
    simp only [ho, ha, hm]

private theorem ofEntry_ok_iff (v : Value) (i : Instruction) : ofEntry v = .ok i ↔ Reads v i := by
  cases v with
  | record fields =>
    simp only [ofEntry]
    rcases given : Table.value? "operator" fields with _ | operator
    · refine iff_of_false (fun read => (by cases read)) ?_
      rintro ⟨present, -⟩
      cases given.symm.trans present
    · dsimp only
      rw [refuse_ok_iff, ofValues_ok_iff]
      constructor
      · rintro ⟨rfl, operand, modifier, valid⟩
        exact .entry given operand modifier valid
      · rintro ⟨present, operand, modifier, valid⟩
        exact ⟨Option.some.inj (given.symm.trans present), operand, modifier, valid⟩
  | _ => exact ⟨fun read => (by cases read), fun reads => (by cases reads)⟩

private theorem Reads.valid {v : Value} {i : Instruction} (reads : Reads v i) : i.Valid := by
  obtain ⟨-, -, -, valid⟩ := reads
  exact valid

private theorem Reads.not_malformed {v : Value} {i : Instruction} (reads : Reads v i) : ¬ Malformed v := by
  obtain @⟨fields, _, given, operand, modifier, valid⟩ := reads
  intro malformed
  cases malformed with
  | notARecord other => exact other fields rfl
  | noOperator absent => cases given.symm.trans absent
  | operator present unknown => exact unknown _ (Option.some.inj (present.symm.trans given))
  | operand noText => exact noText _ operand
  | modifier noName => exact noName _ valid modifier

private theorem exists_reads {v : Value} (fine : ¬ Malformed v) : ∃ i, Reads v i := by
  cases v with
  | record fields =>
    rcases given : Table.value? "operator" fields with _ | operator
    · exact (fine (.noOperator given)).elim
    · by_contra none
      refine fine (.operator given ?_)
      rintro o rfl
      refine fine (.operand ?_)
      intro a operand
      refine fine (.modifier ?_)
      intro m named modifier
      exact none ⟨⟨o, a, m⟩, .entry given operand modifier named⟩
  | _ => exact (fine (.notARecord fun fields same => (by cases same))).elim

private theorem malformed_iff (v : Value) : Malformed v ↔ ∃ own, ofEntry v = .error own := by
  rcases read : ofEntry v with own | i
  · refine iff_of_true ?_ ⟨own, rfl⟩
    by_contra fine
    obtain ⟨i, reads⟩ := exists_reads fine
    cases read.symm.trans ((ofEntry_ok_iff v i).mpr reads)
  · refine iff_of_false ((ofEntry_ok_iff v i).mp read).not_malformed ?_
    rintro ⟨own, refused⟩
    cases refused

/-- The normal form of an entry: it has the three parts and no others, and a missing operand or modifier
is null. -/
def entryForm : Value → Value :=
  withParts
    [{ name := "operator" }, { name := "operand", missing := some .null },
      { name := "modifier", missing := some .null }]

private theorem Reads.entryForm_eq {v : Value} {i : Instruction} (reads : Reads v i) :
    entryForm v = i.entry := by
  have nullable (key : String) (fields : Table Value) :
      Part.entry? { name := key, missing := some .null } fields = some (key, Value.field key fields) := by
    rw [Part.entry?, Value.field]
    rcases Table.value? key fields with _ | v <;> rfl
  obtain ⟨given, operand, modifier, -⟩ := reads
  simp only [entryForm, withParts, List.filterMap_cons, List.filterMap_nil, nullable, operand, modifier]
  simp only [Part.entry?, given]
  rfl

end Instruction

namespace Program

open Instruction (Reads Malformed ofEntry)

/-- A document has the form of a program, with these entries. -/
inductive HasEntries : Value → List Value → Prop
  | intro {fields inner : Table Value} {entries : List Value} :
      Table.value? "program" fields = some (.record inner) →
      Table.value? "instructions" inner = some (.list entries) → HasEntries (.record fields) entries

/-- The messages with which a document is refused, none if it is read. -/
def raised (d : Value) : List String :=
  match ofDocument d with
  | .ok _ => []
  | .error fault => (fault.report?.map Prod.snd).getD []

/-- The normal form of the document of a program: names that the format does not have are dropped, missing
operands and modifiers are null, and all else is kept. -/
def programForm : Value → Value :=
  withParts
    [{ name := "program",
       normal := withParts [{ name := "instructions", normal := withItems Instruction.entryForm }] }]

private theorem entries?_iff (d : Value) (entries : List Value) :
    entries? d = some entries ↔ HasEntries d entries := by
  have present {key : String} {fields : Table Value} {v : Value} (some : v ≠ .null) :
      Value.field key fields = v ↔ Table.value? key fields = .some v := by
    rw [Value.field]
    rcases Table.value? key fields with _ | w
    · simpa using some.symm
    · simp
  constructor
  · intro found
    unfold entries? at found
    split at found
    · split at found
      · rename_i program
        split at found
        · rename_i instructions
          cases found
          exact .intro ((present (by simp)).mp program) ((present (by simp)).mp instructions)
        · cases found
      · cases found
    · cases found
  · rintro ⟨program, instructions⟩
    rw [← present (by simp)] at program instructions
    simp only [entries?, program, instructions]

private theorem programForm_of_hasEntries {d : Value} {entries : List Value} (has : HasEntries d entries) :
    programForm d = .record [("program",
      .record [("instructions", .list (entries.map Instruction.entryForm))])] := by
  obtain ⟨program, instructions⟩ := has
  simp only [programForm, withParts, List.filterMap_cons, List.filterMap_nil, Part.entry?, program,
    instructions, withItems]

/-- The faults of the entries of a program, in the order in which they are told. -/
def entryFaults (entries : List Value) : List DocumentFault :=
  (readEntries Place.instruction ofEntry entries).1

private theorem map_entryFaults (entries : List Value) :
    (entryFaults entries).map DocumentFault.message = messages ofEntry .instruction entries :=
  messages_readEntries ofEntry .instruction entries

private theorem entryFaults_eq_nil_iff (entries : List Value) :
    entryFaults entries = [] ↔ ∀ v ∈ entries, ¬ Malformed v := by
  rw [← List.map_eq_nil_iff, map_entryFaults, messages_eq_nil_iff Instruction.ofEntry_ne_nil]
  simp only [Instruction.malformed_iff]

private theorem ofDocument_of_hasEntries {d : Value} {entries : List Value} (has : HasEntries d entries) :
    entryFaults entries ≠ [] ∧ ofDocument d = .error (.document .program (entryFaults entries)) ∨
      entryFaults entries = [] ∧ ∃ p, ofDocument d = .ok p := by
  simp only [ofDocument, (entries?_iff d entries).mpr has, entryFaults]
  rcases readEntries Place.instruction ofEntry entries with ⟨_ | ⟨fault, faults⟩, p⟩
  · exact .inr ⟨rfl, p, rfl⟩
  · exact .inl ⟨List.cons_ne_nil _ _, rfl⟩

private theorem ofDocument_ok_iff {d : Value} {entries : List Value} (has : HasEntries d entries)
    (p : Program) :
    ofDocument d = .ok p ↔ List.Forall₂ Reads entries p := by
  have rows : readEntries Place.instruction ofEntry entries = ([], p) ↔
      List.Forall₂ Reads entries p := by
    rw [readEntries, readFrom_iff _ _ Instruction.ofEntry_ne_nil]
    simp only [Instruction.ofEntry_ok_iff]
  rw [← rows, ofDocument, (entries?_iff d entries).mpr has]
  dsimp only
  rcases readEntries Place.instruction ofEntry entries with ⟨_ | ⟨fault, faults⟩, q⟩ <;> simp

private theorem ofDocument_of_not_hasEntries {d : Value} (none : ¬ ∃ entries, HasEntries d entries) :
    ofDocument d = .error (.document .program [.notAProgram]) := by
  rcases found : entries? d with _ | entries
  · rw [ofDocument, found]
  · exact (none ⟨entries, (entries?_iff d entries).mp found⟩).elim

private theorem raised_of_hasEntries {d : Value} {entries : List Value} (has : HasEntries d entries) :
    raised d = messages ofEntry .instruction entries := by
  rw [← map_entryFaults]
  rcases ofDocument_of_hasEntries has with ⟨-, refused⟩ | ⟨none, p, read⟩
  · rw [raised, refused]
    rfl
  · rw [raised, read, none]
    rfl

private theorem raised_at_iff {d : Value} {entries : List Value} (has : HasEntries d entries) (i : Nat) :
    (∃ m ∈ raised d, (Place.instruction i).heads m = true) ↔ ∃ v ∈ entries[i]?, Malformed v := by
  have apart (i j : Nat) : Place.instruction i = Place.instruction j ↔ i = j := by simp
  rw [raised_of_hasEntries has]
  rcases found : entries[i]? with _ | v
  · have silent := List.filter_eq_nil_iff.mp (filter_messages_of_none ofEntry apart found)
    refine iff_of_false ?_ (by simp)
    rintro ⟨m, told, heads⟩
    exact silent m told heads
  · have located : Network.Locates (messages ofEntry .instruction entries) ofEntry Malformed
        .instruction entries :=
      Network.locates_of_filter Instruction.ofEntry_ne_nil Instruction.malformed_iff apart fun _ => rfl
    rw [located.iff_malformed found]
    simp

private theorem read_or_refused (d : Value) :
    (∃ p, ofDocument d = .ok p ∧ ∀ i ∈ p, i.Valid) ∨
      ∃ faults, ofDocument d = .error (.document .program faults) ∧ faults ≠ [] := by
  by_cases has : ∃ entries, HasEntries d entries
  · obtain ⟨entries, has⟩ := has
    rcases ofDocument_of_hasEntries has with ⟨faulty, refused⟩ | ⟨-, p, read⟩
    · exact .inr ⟨_, refused, faulty⟩
    · have rows := (ofDocument_ok_iff has p).mp read
      obtain ⟨valid, -⟩ := (List.forall₂_and_left _ _).mp
        (rows.flip.imp fun i v reads => (⟨reads.valid, reads⟩ : i.Valid ∧ Reads v i))
      exact .inl ⟨p, read, valid⟩
  · exact .inr ⟨_, ofDocument_of_not_hasEntries has, List.cons_ne_nil _ _⟩

private theorem document_eq_programForm {d : Value} {p : Program} (read : ofDocument d = .ok p) :
    p.document = programForm d := by
  by_cases has : ∃ entries, HasEntries d entries
  · obtain ⟨entries, has⟩ := has
    have rows := (ofDocument_ok_iff has p).mp read
    have forms : entries.map Instruction.entryForm = p.map Instruction.entry :=
      map_eq_map_of_forall₂ (rows.imp fun v i reads => reads.entryForm_eq)
    rw [programForm_of_hasEntries has, forms, document]
  · cases read.symm.trans (ofDocument_of_not_hasEntries has)

/-- Reading a program takes every entry or none, and loses nothing. Every document is read as valid
instructions or refused with the faults of a document. One without a list of entries is refused for that
alone; one with entries is refused exactly when some entry is malformed, with the messages about the entries
in their order, among which one begins with the place of an index exactly when the entry there is malformed;
else it is read as one instruction for each entry. Valid instructions come back from their document, and what
has been read is written as the normal form of what it was read from. -/
theorem reading_all_or_nothing :
    (∀ d, (∃ p, ofDocument d = .ok p ∧ ∀ i ∈ p, i.Valid) ∨
      ∃ faults, ofDocument d = .error (.document .program faults) ∧ faults ≠ []) ∧
    (∀ d, (¬ ∃ entries, HasEntries d entries) →
      ofDocument d = .error (.document .program [.notAProgram])) ∧
    (∀ d entries, HasEntries d entries →
      ((∃ fault, ofDocument d = .error fault) ↔ ∃ v ∈ entries, Malformed v) ∧
      raised d = messages ofEntry .instruction entries ∧
      (∀ i, (∃ m ∈ raised d, (Place.instruction i).heads m = true) ↔ ∃ v ∈ entries[i]?, Malformed v) ∧
      ∀ p, ofDocument d = .ok p ↔ List.Forall₂ Reads entries p) ∧
    (∀ p : Program, (∀ i ∈ p, i.Valid) → ofDocument p.document = .ok p) ∧
    ∀ d p, ofDocument d = .ok p → p.document = programForm d := by
  refine ⟨read_or_refused, fun d none => ofDocument_of_not_hasEntries none, ?_,
    fun p valid => ofDocument_document valid, fun d p read => document_eq_programForm read⟩
  intro d entries has
  refine ⟨?_, raised_of_hasEntries has, raised_at_iff has, ofDocument_ok_iff has⟩
  have fine := entryFaults_eq_nil_iff entries
  rcases ofDocument_of_hasEntries has with ⟨faulty, refused⟩ | ⟨none, p, read⟩
  · refine iff_of_true ⟨_, refused⟩ ?_
    simpa [fine] using faulty
  · refine iff_of_false ?_ (by simpa using fine.mp none)
    rintro ⟨fault, refused⟩
    cases read.symm.trans refused

/-- A program with a title and a note. The operand of its first entry and the modifier of its second are
missing. -/
def drillDocument (third : Value) : Value :=
  .record [("title", .text "drill"),
    ("program", .record [("instructions", .list
      [.record [("modifier", .text "N"), ("operator", .text "LD")],
        .record [("note", .null), ("operand", .text "  Y1 "), ("operator", .text "ST")], third])])]

private theorem hasEntries_drillDocument (third : Value) : HasEntries (drillDocument third)
    [.record [("modifier", .text "N"), ("operator", .text "LD")],
      .record [("note", .null), ("operand", .text "  Y1 "), ("operator", .text "ST")], third] :=
  .intro rfl rfl

/-- An entry with nothing in order: its operator is in small letters, its operand is a list and its modifier
a blank. -/
def faultyEntry : Value :=
  .record [("operator", .text "ld"), ("operand", .list []), ("modifier", .text " ")]

theorem drill_judged :
    let sound := drillDocument (.record [("operator", .text "R"), ("operand", .text "")])
    let p : Program := [⟨.ld, none, some "N"⟩, ⟨.st, some "  Y1 ", none⟩, ⟨.r, some "", none⟩]
    (ofDocument sound = .ok p ∧ p.document = programForm sound ∧ ofDocument p.document = .ok p) ∧
    (raised (drillDocument faultyEntry) =
        ["instructions[2]: operator 'ld' is not a known IL operator",
          "instructions[2]: operand must be a string, got list",
          "instructions[2]: modifier must be a non-empty string, got ' '"] ∧
      (∃ fault, ofDocument (drillDocument faultyEntry) = .error fault) ∧
      (∃ m ∈ raised (drillDocument faultyEntry), (Place.instruction 2).heads m = true) ∧
      ¬ ∃ m ∈ raised (drillDocument faultyEntry), (Place.instruction 0).heads m = true) ∧
    ofDocument (.list [faultyEntry]) = .error (.document .program [.notAProgram]) := by
  intro sound p
  obtain ⟨-, formless, judged, back, written⟩ := reading_all_or_nothing
  have named : Text.isName "N" = true := by decide
  have valid : ∀ i ∈ p, i.Valid := by simp [p, Instruction.Valid, named]
  have read : ofDocument sound = .ok p := by
    obtain ⟨-, -, -, reads⟩ := judged _ _ (hasEntries_drillDocument _)
    refine (reads p).mpr (.cons (.entry rfl rfl rfl ?_) (.cons (.entry rfl rfl rfl ?_)
      (.cons (.entry rfl rfl rfl ?_) .nil)))
    all_goals exact valid _ (by simp [p])
  have small (o : Operator) : Value.text "ld" ≠ .text o.name := by
    cases o <;> simp [Operator.name]
  have unknown : Malformed faultyEntry := .operator rfl small
  obtain ⟨refused, told, located, -⟩ := judged _ _ (hasEntries_drillDocument faultyEntry)
  refine ⟨⟨read, written _ _ read, back p valid⟩, ⟨?_, ?_, ?_, ?_⟩, formless _ ?_⟩
  · rw [told]
    decide +kernel
  · exact refused.mpr ⟨faultyEntry, by simp, unknown⟩
  · exact (located 2).mpr ⟨faultyEntry, rfl, unknown⟩
  · rw [located 0]
    rintro ⟨v, first, malformed⟩
    obtain rfl := Option.some.inj first
    have reads : Reads (.record [("modifier", .text "N"), ("operator", .text "LD")])
        ⟨.ld, none, some "N"⟩ := .entry rfl rfl rfl (valid _ (by simp [p]))
    exact reads.not_malformed malformed
  · rintro ⟨entries, has⟩
    cases has

end Program

end RungLogic
