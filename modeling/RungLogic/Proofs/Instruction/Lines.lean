import Mathlib.Data.List.Forall2
import RungLogic.Proofs.Instruction.Canonical

/-!
Programs read line by line. Each active line is read by itself, and the first that is refused decides the
error and the number it carries. So the instructions of two texts with a line feed between them are those
of the first, then those of the second, and a refusal in the second is reported further down by the lines
that come before it.
-/

set_option autoImplicit false
set_option relaxedAutoImplicit false

namespace RungLogic

namespace Instruction

/-- Why a line that holds some word gives no instruction: its first word is malformed, or what stands there
as the operator is none. -/
inductive Refused (line : String) : Error → Prop
  | malformed {token : String} {rest : List String} : Text.words line = token :: rest →
      splitToken token = .error (.malformed token) → Refused line (.line (.malformed token) none)
  | unknown {token word : String} {rest : List String} {modifier : Option String} :
      Text.words line = token :: rest → splitToken token = .ok (word, modifier) →
      Operator.ofName? word = none →
      Refused line (.invalid .instruction [.unknownOperator (.text word)])

private theorem isActive_iff (line : String) :
    isActive line = true ↔ Text.isName line = true ∧ (Text.trim line).toList.head? ≠ some ';' := by
  have blank : Text.isName line = false ↔ Text.trimBy Text.isBlank line.toList = [] := by
    simp [Text.isName, Text.trimBy_eq_nil_iff]
  rw [← Bool.not_eq_false (Text.isName line), blank, Text.trim, String.toList_ofList, isActive]
  rcases Text.trimBy Text.isBlank line.toList with _ | ⟨c, cs⟩ <;> simp

private theorem words_ne_nil_of_isActive {line : String} (active : isActive line = true) :
    Text.words line ≠ [] := by
  intro none
  have blank := Text.isBlank_of_runs_eq_nil (List.map_eq_nil_iff.mp none)
  obtain ⟨named, -⟩ := (isActive_iff line).mp active
  obtain ⟨c, hc, ink⟩ := List.any_eq_true.mp named
  simp [blank c hc] at ink

private theorem splitToken_error {token : String} {fault : LineFault}
    (h : splitToken token = .error fault) :
    fault = .malformed token := by
  simp only [splitToken] at h
  split at h
  · split at h <;> cases h
    rfl
  · cases h

private theorem isName_of_splitToken {token word : String} {modifier : Option String}
    (h : splitToken token = .ok (word, modifier)) : ∀ m ∈ modifier, Text.isName m = true := by
  rintro m rfl
  obtain ⟨some, word⟩ := canonical_splitToken h
  exact (Text.isRun_of_allWord (by simpa using some) word).isName

/-- An active line gives no instruction for one of two reasons, and this is what is said of it. -/
private theorem parse_error_iff {line : String} (active : isActive line = true) {e : Error} :
    parse line = .error e ↔ Refused line e := by
  constructor
  · intro failed
    unfold parse at failed
    split at failed
    · rename_i none
      exact absurd none (words_ne_nil_of_isActive active)
    · rename_i token rest words
      split at failed
      · rename_i fault malformed
        obtain rfl := splitToken_error malformed
        cases failed
        exact .malformed words malformed
      · rename_i word modifier split
        rw [make_eq word (isName_of_splitToken split)] at failed
        rcases known : Operator.ofName? word with _ | o
        · rw [known] at failed
          cases failed
          exact .unknown words split known
        · rw [known] at failed
          cases failed
  · intro refused
    cases refused with
    | malformed words malformed => simp only [parse, words, malformed]
    | unknown words split unknown =>
      simp only [parse, words, split, make_eq _ (isName_of_splitToken split), unknown]

end Instruction

/-- The error as it is reported when so many lines come before those in which it is found. -/
def Error.later (count : Nat) : Error → Error
  | .line fault (some number) => .line fault (some (count + number))
  | e => e

private theorem Instruction.Refused.later {line : String} {e : Error} (refused : Refused line e)
    (count number : Nat) : (e.atLine number).later count = e.atLine (count + number) := by
  cases refused <;> rfl

namespace Program

open Instruction (isActive Refused)

/-- The active lines, each by itself, are read as the instructions of the program. -/
def Gives (lines : List String) (p : Program) : Prop :=
  List.Forall₂ (fun line i => Instruction.parse line = .ok i) (lines.filter isActive) p

/-- Line `k`, counted from zero, is active and fails with this error, and every active line before it
gives an instruction. -/
structure FailsFirst (lines : List String) (k : Nat) (e : Error) : Prop where
  before : ∀ j < k, ∀ line ∈ lines[j]?, isActive line = true → ∃ i, Instruction.parse line = .ok i
  here : ∃ line ∈ lines[k]?, isActive line = true ∧ Instruction.parse line = .error e

private theorem parseFrom_cons_of_active {line : String} (active : isActive line = true) (number : Nat)
    (rest : List String) :
    parseFrom number (line :: rest) =
      match Instruction.parse line with
      | .error e => .error (e.atLine number)
      | .ok i => (parseFrom (number + 1) rest).map (i :: ·) := by
  rcases read : Instruction.parse line with e | i
  · simp only [parseFrom, active, if_true, Instruction.parse_trim, read]
  · simp only [parseFrom, active, if_true, Instruction.parse_trim, read]

private theorem parseFrom_cons_of_passive {line : String} (passive : isActive line = false) (number : Nat)
    (rest : List String) : parseFrom number (line :: rest) = parseFrom (number + 1) rest := by
  rw [parseFrom, if_neg (by simp [passive])]

private theorem gives_cons_of_active {line : String} (active : isActive line = true) {rest : List String}
    {p : Program} :
    Gives (line :: rest) p ↔ ∃ i q, Instruction.parse line = .ok i ∧ Gives rest q ∧ p = i :: q := by
  rw [Gives, List.filter_cons_of_pos active, List.forall₂_cons_left_iff]
  rfl

private theorem gives_cons_of_passive {line : String} (passive : isActive line = false) {rest : List String}
    {p : Program} : Gives (line :: rest) p ↔ Gives rest p := by
  rw [Gives, List.filter_cons_of_neg (by simp [passive]), Gives]

private theorem parseFrom_ok_iff {number : Nat} {lines : List String} {p : Program} :
    parseFrom number lines = .ok p ↔ Gives lines p := by
  induction lines generalizing number p with
  | nil => simp [parseFrom, Gives, eq_comm]
  | cons line rest ih =>
    cases active : isActive line with
    | false => rw [parseFrom_cons_of_passive active, gives_cons_of_passive active, ih]
    | true =>
      have later (q : Program) : parseFrom (number + 1) rest = .ok q ↔ Gives rest q := ih
      rw [parseFrom_cons_of_active active, gives_cons_of_active active]
      simp only [← later]
      rcases Instruction.parse line with e | i
      · simp
      · rcases parseFrom (number + 1) rest with e | q <;> simp [Except.map, eq_comm]

private theorem failsFirst_zero {line : String} {rest : List String} {e : Error} :
    FailsFirst (line :: rest) 0 e ↔ isActive line = true ∧ Instruction.parse line = .error e := by
  constructor
  · rintro ⟨-, same, first, failed⟩
    obtain rfl : line = same := Option.some.inj first
    exact failed
  · intro failed
    exact ⟨fun j low => absurd low (Nat.not_lt_zero j), line, rfl, failed⟩

private theorem failsFirst_succ {line : String} {rest : List String} {k : Nat} {e : Error} :
    FailsFirst (line :: rest) (k + 1) e ↔
      (isActive line = true → ∃ i, Instruction.parse line = .ok i) ∧ FailsFirst rest k e := by
  constructor
  · rintro ⟨before, here⟩
    exact ⟨before 0 (Nat.zero_lt_succ k) line rfl, fun j low => before (j + 1) (Nat.succ_lt_succ low), here⟩
  · rintro ⟨first, before, here⟩
    refine ⟨fun j low => ?_, here⟩
    cases j with
    | zero =>
      intro same top
      obtain rfl : line = same := Option.some.inj top
      exact first
    | succ j => exact before j (Nat.lt_of_succ_lt_succ low)

private theorem FailsFirst.parseFrom_eq {lines : List String} {k : Nat} {fault : Error}
    (fails : FailsFirst lines k fault) (number : Nat) :
    parseFrom number lines = .error (fault.atLine (number + k)) := by
  induction lines generalizing k number with
  | nil =>
    obtain ⟨line, none, -⟩ := fails.here
    cases none
  | cons line rest ih =>
    cases k with
    | zero =>
      obtain ⟨active, failed⟩ := failsFirst_zero.mp fails
      rw [parseFrom_cons_of_active active, failed]
      rfl
    | succ k =>
      obtain ⟨first, fails⟩ := failsFirst_succ.mp fails
      have below := ih fails (number + 1)
      rw [Nat.add_assoc, Nat.add_comm 1 k] at below
      cases active : isActive line with
      | false => rw [parseFrom_cons_of_passive active, below]
      | true =>
        obtain ⟨i, read⟩ := first active
        rw [parseFrom_cons_of_active active, read, below]
        rfl

private theorem exists_failsFirst {number : Nat} {lines : List String} {e : Error}
    (failed : parseFrom number lines = .error e) : ∃ k fault, FailsFirst lines k fault := by
  induction lines generalizing number e with
  | nil => cases failed
  | cons line rest ih =>
    cases active : isActive line with
    | false =>
      rw [parseFrom_cons_of_passive active] at failed
      obtain ⟨k, fault, fails⟩ := ih failed
      exact ⟨k + 1, fault, failsFirst_succ.mpr ⟨by simp [active], fails⟩⟩
    | true =>
      rw [parseFrom_cons_of_active active] at failed
      rcases read : Instruction.parse line with fault | i
      · exact ⟨0, fault, failsFirst_zero.mpr ⟨active, read⟩⟩
      · rw [read] at failed
        rcases below : parseFrom (number + 1) rest with e | q
        · obtain ⟨k, fault, fails⟩ := ih below
          exact ⟨k + 1, fault, failsFirst_succ.mpr ⟨fun _ => ⟨i, read⟩, fails⟩⟩
        · rw [below] at failed
          cases failed

private theorem parseFrom_error_iff {number : Nat} {lines : List String} {e : Error} :
    parseFrom number lines = .error e ↔
      ∃ k fault, FailsFirst lines k fault ∧ e = fault.atLine (number + k) := by
  constructor
  · intro failed
    obtain ⟨k, fault, fails⟩ := exists_failsFirst failed
    rw [fails.parseFrom_eq number] at failed
    cases failed
    exact ⟨k, fault, fails, rfl⟩
  · rintro ⟨k, fault, fails, rfl⟩
    exact fails.parseFrom_eq number

/-- The lines of two lists are read one list after the other, as far as the first that fails. -/
private theorem parseFrom_append (number : Nat) (ls ms : List String) :
    parseFrom number (ls ++ ms) =
      match parseFrom number ls with
      | .error e => .error e
      | .ok p => (parseFrom (number + ls.length) ms).map (p ++ ·) := by
  induction ls generalizing number with
  | nil =>
    rw [List.nil_append, parseFrom, List.length_nil, Nat.add_zero]
    rcases parseFrom number ms with e | q <;> rfl
  | cons line rest ih =>
    have next : number + (line :: rest).length = number + 1 + rest.length := by
      rw [List.length_cons]
      omega
    rw [next, List.cons_append]
    cases active : isActive line with
    | false => rw [parseFrom_cons_of_passive active, parseFrom_cons_of_passive active, ih]
    | true =>
      rw [parseFrom_cons_of_active active, parseFrom_cons_of_active active, ih]
      rcases Instruction.parse line with e | i
      · rfl
      · rcases parseFrom (number + 1) rest with e | p
        · rfl
        · rcases parseFrom (number + 1 + rest.length) ms with e | q <;> rfl

private theorem parseFrom_later (count number : Nat) (lines : List String) :
    parseFrom (count + number) lines = (parseFrom number lines).mapError (Error.later count) := by
  induction lines generalizing number with
  | nil => rfl
  | cons line rest ih =>
    have next : parseFrom (count + number + 1) rest =
        (parseFrom (number + 1) rest).mapError (Error.later count) := ih (number + 1)
    cases active : isActive line with
    | false => rw [parseFrom_cons_of_passive active, parseFrom_cons_of_passive active, next]
    | true =>
      rw [parseFrom_cons_of_active active, parseFrom_cons_of_active active, next]
      rcases failed : Instruction.parse line with e | i
      · have refused : Refused line e := (Instruction.parse_error_iff active).mp failed
        exact congrArg Except.error (refused.later count number).symm
      · rcases parseFrom (number + 1) rest with e | p <;> rfl

private theorem exists_gives_iff {lines : List String} :
    (∃ p, Gives lines p) ↔
      ∀ line ∈ lines, isActive line = true → ∃ i, Instruction.parse line = .ok i := by
  induction lines with
  | nil => exact ⟨fun _ => by simp, fun _ => ⟨[], .nil⟩⟩
  | cons line rest ih =>
    rw [List.forall_mem_cons, ← ih]
    cases active : isActive line with
    | false => simp [gives_cons_of_passive active]
    | true =>
      simp only [gives_cons_of_active active]
      constructor
      · rintro ⟨p, i, q, read, gives, -⟩
        exact ⟨fun _ => ⟨i, read⟩, q, gives⟩
      · rintro ⟨first, q, gives⟩
        obtain ⟨i, read⟩ := first trivial
        exact ⟨i :: q, i, q, read, gives, rfl⟩

private theorem parse_feed (text : String) : parse (text ++ "\n") = parse text := by
  have empty (number : Nat) : parseFrom number [""] = .ok [] := rfl
  rcases Text.lines_feed text with same | more
  · rw [parse, same, parse]
  · rw [parse, more, parseFrom_append, parse]
    rcases parseFrom 1 (Text.lines text) with e | p
    · rfl
    · simp [empty, Except.map]

private theorem parse_append_feed (a b : String) :
    parse (a ++ "\n" ++ b) =
      match parse a, parse b with
      | .error e, _ => .error e
      | .ok _, .error e => .error (e.later (Text.lines (a ++ "\n")).length)
      | .ok p, .ok q => .ok (p ++ q) := by
  rw [← parse_feed a, parse, Text.lines_append_feed, parseFrom_append, Nat.add_comm, parseFrom_later,
    parse, parse]
  rcases parseFrom 1 (Text.lines (a ++ "\n")) with e | p
  · rfl
  · rcases parseFrom 1 (Text.lines b) with e | q <;> rfl

/-- A program is read line by line, by the line breaks of its text, blank lines and notes passed over. It is
read exactly when each active line is, as the instructions of these lines in order. It is refused exactly
with the error of the first active line that is, which carries the number of that line where a word is
malformed and names the operator where there is none of that name. So a text that is read can be put before
another, with a line feed between them: both are read, or what is wrong with the other is reported with its
number raised by the lines before it. -/
theorem parse_line_local :
    (∀ (text : String) (ls : List (List Char)),
      Text.Lined text.toList ls ↔ (Text.lines text).map String.toList = ls) ∧
    (∀ line : String, isActive line = true ↔
      Text.isName line = true ∧ (Text.trim line).toList.head? ≠ some ';') ∧
    (∀ text : String, (∃ p, parse text = .ok p) ↔
      ∀ line ∈ Text.lines text, isActive line = true → ∃ i, Instruction.parse line = .ok i) ∧
    (∀ (text : String) (p : Program), parse text = .ok p ↔ Gives (Text.lines text) p) ∧
    (∀ (text : String) (e : Error), parse text = .error e ↔
      ∃ k fault, FailsFirst (Text.lines text) k fault ∧ e = fault.atLine (k + 1)) ∧
    (∀ (ls : List String) (k : Nat) (fault : Error), FailsFirst ls k fault → ∃ line ∈ ls[k]?,
      (∃ token, Refused line (.line (.malformed token) none) ∧
        fault.atLine (k + 1) = .line (.malformed token) (some (k + 1))) ∨
      ∃ word, Refused line (.invalid .instruction [.unknownOperator (.text word)]) ∧
        fault.atLine (k + 1) = .invalid .instruction [.unknownOperator (.text word)]) ∧
    ∀ a b : String, parse (a ++ "\n" ++ b) =
      match parse a, parse b with
      | .error e, _ => .error e
      | .ok _, .error e => .error (e.later (Text.lines (a ++ "\n")).length)
      | .ok p, .ok q => .ok (p ++ q) := by
  refine ⟨?_, Instruction.isActive_iff, ?_, ?_, ?_, ?_, parse_append_feed⟩
  · intro text ls
    rw [Text.lined_iff, Text.lines, List.map_map]
    simp [Function.comp_def]
  · intro text
    simp only [parse, parseFrom_ok_iff, exists_gives_iff]
  · intro text p
    exact parseFrom_ok_iff
  · intro text e
    simp only [parse, parseFrom_error_iff, Nat.add_comm]
  · rintro ls k fault ⟨-, line, here, active, failed⟩
    refine ⟨line, here, ?_⟩
    have refused := (Instruction.parse_error_iff active).mp failed
    cases refused with
    | malformed words malformed => exact .inl ⟨_, .malformed words malformed, rfl⟩
    | unknown words split unknown => exact .inr ⟨_, .unknown words split unknown, rfl⟩

/-- A carriage return at the end of one text and the line feed after it end one line, and a note counts as a
line, so the word that is malformed stands in the third. -/
theorem pump_refused_at_third_line :
    let a := "LD X1\r"
    let b := " ; pump\u2028 ST(Y1  "
    parse a = .ok [⟨.ld, some "X1", none⟩] ∧
      parse b = .error (.line (.malformed "ST(Y1") (some 2)) ∧
      parse (a ++ "\n" ++ b) = .error (.line (.malformed "ST(Y1") (some 3)) ∧
      FailsFirst (Text.lines (a ++ "\n" ++ b)) 2 (.line (.malformed "ST(Y1") none) ∧
      ∃ line ∈ (Text.lines (a ++ "\n" ++ b))[2]?, Refused line (.line (.malformed "ST(Y1") none) := by
  intro a b
  have la : Text.lines a = ["LD X1"] := by decide
  have lb : Text.lines b = [" ; pump", " ST(Y1  "] := by decide
  have lab : Text.lines (a ++ "\n" ++ b) = ["LD X1", " ; pump", " ST(Y1  "] := by decide
  have above : (Text.lines (a ++ "\n")).length = 1 := by decide
  obtain ⟨-, -, -, -, -, worded, seam⟩ := parse_line_local
  have first : parse a = .ok [⟨.ld, some "X1", none⟩] := by
    rw [parse, la]
    rfl
  have second : parse b = .error (.line (.malformed "ST(Y1") (some 2)) := by
    rw [parse, lb]
    rfl
  have fails : FailsFirst (Text.lines (a ++ "\n" ++ b)) 2 (.line (.malformed "ST(Y1") none) := by
    rw [lab]
    exact failsFirst_succ.mpr ⟨fun _ => ⟨_, rfl⟩,
      failsFirst_succ.mpr ⟨fun active => absurd active (by decide), failsFirst_zero.mpr ⟨by decide, rfl⟩⟩⟩
  refine ⟨first, second, ?_, fails, ?_⟩
  · rw [seam, first, second, above]
    rfl
  · obtain ⟨line, third, ⟨token, why, same⟩ | ⟨word, -, same⟩⟩ := worded _ _ _ fails
    · cases same
      exact ⟨line, third, why⟩
    · cases same

end Program

end RungLogic
