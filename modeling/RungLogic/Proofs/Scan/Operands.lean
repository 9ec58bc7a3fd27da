import RungLogic.Proofs.Presets
import RungLogic.Proofs.Scan.Recursion
import RungLogic.Proofs.Scan.Repetition
import RungLogic.Proofs.Text.Runs
import RungLogic.Text.Uppercase

/-!
Operands that name a variable. An identifier is no integer, no decimal and no duration, so a block whose
operand is the identifier of a variable takes the variable for its second side. The words for a number
without digits are identifiers too: they are read as their numbers, whatever is declared.
-/

set_option autoImplicit false
set_option relaxedAutoImplicit false

namespace RungLogic

/-- Letters, digits and underscores, of which the first is no digit. -/
def Text.IsIdentifier (s : String) : Prop :=
  ∃ c rest, s.toList = c :: rest ∧ isWord c = true ∧ digitValue? c = none ∧
    ∀ d ∈ rest, isWord d = true

/-- A word for infinity, in any case of its letters. -/
def Number.IsInfinity (s : String) : Prop :=
  Text.lowerASCII s = "inf" ∨ Text.lowerASCII s = "infinity"

/-- The word for the undefined number, in any case of its letters. -/
def Number.IsUndefined (s : String) : Prop := Text.lowerASCII s = "nan"

/-- What a block takes a content for: its value, or the milliseconds that a text denotes, which are those
of a second when it denotes none. -/
inductive Content.Reads : Content → Signal → Prop
  | value {content : Content} {s : Signal} : content.value = s.value → Reads content s
  | denoted {text : String} {n : Nat} : Preset.Denotes (Text.trim text).toList n →
      Reads (.literal text) (.num (.int n))
  | standard {text : String} : (¬ ∃ n, Preset.Denotes (Text.trim text).toList n) →
      Reads (.literal text) (.num (.int 1000))

private theorem Content.reads_signal (content : Content) : content.Reads content.signal := by
  cases content with
  | truth | whole | measure | span => exact .value rfl
  | literal text =>
    by_cases denotes : ∃ n, Preset.Denotes (Text.trim text).toList n
    · obtain ⟨n, denotes⟩ := denotes
      rw [signal, Preset.textDuration_of_denotes denotes]
      exact .denoted denotes
    · rw [signal, Preset.textDuration_of_not_denotes denotes]
      exact .standard denotes

private theorem Content.reads_whole {i : Int} {s : Signal} (h : Reads (.whole i) s) :
    s = .num (.int i) := by
  cases h with
  | value same =>
    cases s with
    | truth => cases same
    | num n =>
      cases same
      rfl

namespace Text

private theorem IsIdentifier.isWord {s : String} (h : IsIdentifier s) :
    ∀ c ∈ s.toList, isWord c = true := by
  obtain ⟨c, rest, hs, hc, -, hrest⟩ := h
  rw [hs]
  exact List.forall_mem_cons.mpr ⟨hc, hrest⟩

private theorem ne_of_isWord {c d : Char} (h : isWord c = true) (hd : isWord d = false) : c ≠ d := by
  rintro rfl
  cases h.symm.trans hd

end Text

namespace Number

open Text (IsIdentifier)

variable {s : String} {c : Char} {rest : List Char}

private theorem digitGroup?_of_head (h : Text.digitValue? c = none) : digitGroup? (c :: rest) = none := by
  unfold digitGroup?
  split <;> simp_all

private theorem decimal?_of_head (noDigit : Text.digitValue? c = none) (noPoint : c ≠ '.') :
    decimal? (c :: rest) = none := by
  by_cases power : c = 'e' ∨ c = 'E'
  · simp [decimal?, cutAt, power, optionalGroup?]
  · simp [decimal?, cutAt, power, noPoint, optionalGroup?, digitGroup?_of_head noDigit]

private theorem takeSign_of_isWord (h : Text.isWord c = true) :
    takeSign (c :: rest) = (false, c :: rest) := by
  unfold takeSign
  split
  · rename_i same
    exact absurd (List.cons.inj same).1 (Text.ne_of_isWord h (by decide))
  · rename_i same
    exact absurd (List.cons.inj same).1 (Text.ne_of_isWord h (by decide))
  · rfl

private theorem trimBy_identifier (h : IsIdentifier s) : Text.trimBy isNumberBlank s.toList = s.toList := by
  refine Text.trimBy_eq_self fun c hc => ?_
  rw [isNumberBlank, Text.not_isBlank_of_isWord (h.isWord c hc), Bool.false_and]

private theorem readInteger?_identifier (h : IsIdentifier s) : readInteger? s = none := by
  rw [readInteger?, trimBy_identifier h]
  obtain ⟨c, rest, hs, word, noDigit, -⟩ := h
  simp [hs, signedDigits?, takeSign_of_isWord word, digitGroup?_of_head noDigit]

private theorem readReal?_identifier (h : IsIdentifier s) : readReal? s = namedReal? s.toList := by
  rw [readReal?, trimBy_identifier h]
  obtain ⟨c, rest, hs, word, noDigit, -⟩ := h
  have noDecimal : decimal? (c :: rest) = none :=
    decimal?_of_head noDigit (Text.ne_of_isWord word (by decide))
  rw [hs, takeSign_of_isWord word]
  rcases named : namedReal? (c :: rest) with _ | x
  · simp [noDecimal, named]
  · simp [named]

private theorem namedReal?_of_isInfinity (h : IsInfinity s) : namedReal? s.toList = some (1.0 / 0.0) := by
  have word : Text.lowerASCII s = "inf" ∨ Text.lowerASCII s = "infinity" := h
  rw [Text.lowerASCII] at word
  simp [namedReal?, word]

private theorem namedReal?_of_isUndefined (h : IsUndefined s) : namedReal? s.toList = some (0.0 / 0.0) := by
  have word : Text.lowerASCII s = "nan" := h
  rw [Text.lowerASCII] at word
  simp [namedReal?, word]

private theorem namedReal?_eq_none (defined : ¬ IsUndefined s) (finite : ¬ IsInfinity s) :
    namedReal? s.toList = none := by
  rw [IsInfinity, Text.lowerASCII] at finite
  rw [IsUndefined, Text.lowerASCII] at defined
  simp [namedReal?, finite, defined]

end Number

private theorem Text.IsIdentifier.not_duration {s : String} (h : IsIdentifier s) :
    "T#".toList.isPrefixOf s.toList = false := by
  rw [Bool.eq_false_iff]
  intro duration
  have mark : '#' ∈ s.toList := (List.isPrefixOf_iff_prefix.mp duration).subset (by decide)
  exact Text.ne_of_isWord (h.isWord '#' mark) (by decide) rfl

namespace Scan

open Text (IsIdentifier)

variable {w : Surroundings} {e : Element}

/-- What a block with two sides makes of them. -/
def operation : Kind → Signal → Signal → Except Error Signal × List Notice
  | .add => arithmetic Number.add?
  | .subtract => arithmetic Number.sub?
  | .multiply => arithmetic Number.mul?
  | .divide => quotient
  | kind => comparison kind

private theorem compute_of_takesOperand (block : e.kind.takesOperand = true) (w : Surroundings)
    (inputs : Table Signal) (state : Option ElementState) :
    compute w e inputs state = twoSided w.store e inputs (operation e.kind) := by
  cases hkind : e.kind <;> simp only [hkind, Kind.takesOperand, Bool.false_eq_true] at block <;>
    simp only [compute, hkind, operation]

private theorem Gathers.value?_of_unread {ports : List (String × PortEnd)} {known inputs : Table Signal}
    {m m' : Memory} (h : Gathers w ports known m inputs m') {port : String}
    (unread : ∀ p ∈ ports, p.1 ≠ port) : inputs.value? port = known.value? port := by
  induction ports generalizing known m with
  | nil =>
    cases h
    rfl
  | cons p rest ih =>
    obtain ⟨here, later⟩ := List.forall_mem_cons.mp unread
    cases h with
    | cons _ _ _ gathered => rw [ih gathered later, Table.value?_put_of_ne here.symm]

private theorem ne_of_mem_wiredPorts {n : Network} {port : String} (unwired : feed? n e.id port = none) :
    ∀ p ∈ wiredPorts n e, p.1 ≠ port := by
  rintro p hp rfl
  cases unwired.symm.trans (mem_pending_fresh.mp hp).2

/-- A block takes a signal for its second side: from whatever its wires bring, and in whatever state, it
computes what its kind makes of its first side and that signal, and reports nothing else. -/
def TakesSecond (w : Surroundings) (e : Element) (second : Signal) : Prop :=
  ∀ {m m₁ : Memory} {inputs : Table Signal}, Gathers w (wiredPorts w.network e) [] m inputs m₁ →
    ∀ state, compute w e inputs state =
      { result := (operation e.kind (firstSide inputs) second).1
        notices := (operation e.kind (firstSide inputs) second).2 }

private theorem takesSecond_of_namedOperand {text : String} (block : e.kind.takesOperand = true)
    (unwired : feed? w.network e.id "in2" = none) (operand : e.operand = .text text) {second : Signal}
    (named : namedOperand w.store e text = (second, [])) : TakesSecond w e second := by
  intro m m₁ inputs gathered state
  have missing : inputs.value? "in2" = none := gathered.value?_of_unread (ne_of_mem_wiredPorts unwired)
  have side : secondSide w.store e inputs = (second, []) := by
    rw [secondSide, missing, operand]
    exact named
  rw [compute_of_takesOperand block, twoSided, side]
  rfl

section Named

variable {text : String} (identifier : IsIdentifier (Text.trim text))

include identifier

private theorem namedOperand_word {x : Float} (word : Number.namedReal? (Text.trim text).toList = some x)
    (store : Store) (e : Element) : namedOperand store e text = (.num (.real x), []) := by
  simp only [namedOperand, Number.readInteger?_identifier identifier,
    Number.readReal?_identifier identifier, word]

private theorem namedOperand_declared (noWord : Number.namedReal? (Text.trim text).toList = none)
    {store : Store} {content : Content} (declared : store.value? (Text.trim text) = some content)
    (e : Element) : namedOperand store e text = (content.signal, []) := by
  simp only [namedOperand, Number.readInteger?_identifier identifier,
    Number.readReal?_identifier identifier, noWord, identifier.not_duration, Bool.false_eq_true,
    if_false, declared]

end Named

/-- A block without a wire on its second side takes the variable that its operand names, when the operand
is the identifier of a declared one, and a text for the milliseconds that it denotes. But an operand that
is a word for infinity or for the undefined number is taken for that number, though a variable of this
name is declared. -/
theorem operand_takes_variable {text : String} {content : Content}
    (block : e.kind.takesOperand = true) (unwired : feed? w.network e.id "in2" = none)
    (operand : e.operand = .text text) (identifier : IsIdentifier (Text.trim text))
    (declared : w.store.value? (Text.trim text) = some content) :
    (¬ Number.IsInfinity (Text.trim text) → ¬ Number.IsUndefined (Text.trim text) →
      ∃ second, content.Reads second ∧ TakesSecond w e second) ∧
    (Number.IsInfinity (Text.trim text) → TakesSecond w e (.num (.real (1.0 / 0.0)))) ∧
    (Number.IsUndefined (Text.trim text) → TakesSecond w e (.num (.real (0.0 / 0.0)))) := by
  have takes {s : Signal} (named : namedOperand w.store e text = (s, [])) : TakesSecond w e s :=
    takesSecond_of_namedOperand block unwired operand named
  refine ⟨fun finite defined => ⟨content.signal, content.reads_signal, takes ?_⟩,
    fun infinity => takes ?_, fun undefined => takes ?_⟩
  · exact namedOperand_declared identifier (Number.namedReal?_eq_none defined finite) declared e
  · exact namedOperand_word identifier (Number.namedReal?_of_isInfinity infinity) w.store e
  · exact namedOperand_word identifier (Number.namedReal?_of_isUndefined undefined) w.store e

/-- A comparison with that operand. -/
def comparing (operand : String) : Element := ⟨"same", .equal, {}, [("operand", .text operand)]⟩

/-- A comparison behind a switch that is on, beside a variable that holds one. -/
def besideOne (name operand : String) : Surroundings where
  network :=
    { id := "n"
      elements := [⟨"switch", .contact, {}, [("variable", .text "X1")]⟩, comparing operand]
      connections := [⟨⟨"switch", "out"⟩, ⟨"same", "in1"⟩⟩] }
  store := [("X1", .truth true), (name, .whole 1)]
  now := .int 0
  memoize := false

private theorem exists_gathers_besideOne (name operand : String) :
    ∃ m₁, Gathers (besideOne name operand)
      (wiredPorts (besideOne name operand).network (comparing operand)) [] {}
      [("in1", .truth true)] m₁ :=
  ⟨_, .cons rfl (.applied rfl .nil rfl) rfl .nil⟩

/-- The comparison takes the variable, blanks around its name or not, and so it is on. -/
theorem comparison_takes_variable :
    (comparing " LIMIT ").kind.takesOperand = true ∧
      feed? (besideOne "LIMIT" " LIMIT ").network "same" "in2" = none ∧
      (comparing " LIMIT ").operand = .text " LIMIT " ∧ IsIdentifier (Text.trim " LIMIT ") ∧
      (besideOne "LIMIT" " LIMIT ").store.value? (Text.trim " LIMIT ") = some (.whole 1) ∧
      TakesSecond (besideOne "LIMIT" " LIMIT ") (comparing " LIMIT ") (.num (.int 1)) ∧
      (compute (besideOne "LIMIT" " LIMIT ") (comparing " LIMIT ") [("in1", .truth true)] none).result =
        .ok (.truth true) := by
  have identifier : IsIdentifier (Text.trim " LIMIT ") :=
    ⟨'L', "IMIT".toList, by decide, by decide, by decide, List.all_eq_true.mp (by decide)⟩
  have declared : (besideOne "LIMIT" " LIMIT ").store.value? (Text.trim " LIMIT ") =
      some (.whole 1) := rfl
  have finite : ¬ Number.IsInfinity (Text.trim " LIMIT ") := by
    rw [Number.IsInfinity]
    decide
  have defined : ¬ Number.IsUndefined (Text.trim " LIMIT ") := by
    rw [Number.IsUndefined]
    decide
  obtain ⟨second, reads, takes⟩ := (operand_takes_variable (e := comparing " LIMIT ")
    (w := besideOne "LIMIT" " LIMIT ") rfl rfl rfl identifier declared).1 finite defined
  obtain rfl := Content.reads_whole reads
  refine ⟨rfl, rfl, rfl, identifier, declared, takes, ?_⟩
  obtain ⟨m₁, gathered⟩ := exists_gathers_besideOne "LIMIT" " LIMIT "
  rw [takes gathered none]
  rfl

/-- A variable with the name of the infinite number is not what the comparison takes. -/
theorem comparison_takes_infinity :
    (comparing "INF").kind.takesOperand = true ∧
      feed? (besideOne "INF" "INF").network "same" "in2" = none ∧
      (comparing "INF").operand = .text "INF" ∧ IsIdentifier (Text.trim "INF") ∧
      (besideOne "INF" "INF").store.value? (Text.trim "INF") = some (.whole 1) ∧
      ¬ ∃ second, Content.Reads (.whole 1) second ∧
        TakesSecond (besideOne "INF" "INF") (comparing "INF") second := by
  have identifier : IsIdentifier (Text.trim "INF") :=
    ⟨'I', "NF".toList, by decide, by decide, by decide, List.all_eq_true.mp (by decide)⟩
  refine ⟨rfl, rfl, rfl, identifier, rfl, ?_⟩
  rintro ⟨second, reads, takes⟩
  obtain rfl := Content.reads_whole reads
  obtain ⟨m₁, gathered⟩ := exists_gathers_besideOne "INF" "INF"
  have word : Number.IsInfinity (Text.trim "INF") := .inl (by decide)
  have infinity : TakesSecond (besideOne "INF" "INF") (comparing "INF") (.num (.real (1.0 / 0.0))) :=
    takesSecond_of_namedOperand rfl rfl rfl
      (namedOperand_word identifier (Number.namedReal?_of_isInfinity word) _ _)
  have different : holds .equal (.int 1) (.real (1.0 / 0.0)) = false := by decide +kernel
  have same : Except.ok (Signal.truth (holds .equal (.int 1) (.int 1))) =
      Except.ok (ε := Error) (Signal.truth (holds .equal (.int 1) (.real (1.0 / 0.0)))) :=
    congrArg Computed.result ((takes gathered none).symm.trans (infinity gathered none))
  rw [different] at same
  cases same

end Scan

end RungLogic
