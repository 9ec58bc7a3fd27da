import RungLogic.Instruction.Line
import RungLogic.Proofs.Text.Runs

/-!
Canonical instructions: those whose text, when it is read again, gives them back. Their operands are
words with single blanks between them, and their modifiers are made of word characters. Whatever is
read from a text is canonical.
-/

set_option autoImplicit false
set_option relaxedAutoImplicit false

namespace RungLogic

open Text (IsRun)

namespace Instruction

/-- An operand is made of words with single blanks between them, a modifier of word characters;
neither is empty. -/
structure Canonical (i : Instruction) : Prop where
  operand : ∀ a ∈ i.operand, a ≠ "" ∧ a = " ".intercalate (Text.words a)
  modifier : ∀ m ∈ i.modifier, m ≠ "" ∧ Text.allWord m.toList = true

private theorem allWord_name (o : Operator) : Text.allWord o.name.toList = true := by
  cases o <;> decide

private theorem name_ne_nil (o : Operator) : o.name.toList ≠ [] := by
  cases o <;> decide

private theorem isWord_parenthesis {c : Char} (h : Text.isWord c = true) : c ≠ '(' ∧ c ≠ ')' := by
  constructor
  · rintro rfl
    revert h
    decide
  · rintro rfl
    revert h
    decide

/-- The modifier of an instruction between parentheses, if it has one. -/
private def tail (i : Instruction) : List Char :=
  match i.modifier with
  | some m => '(' :: (m.toList ++ [')'])
  | none => []

private def token (i : Instruction) : List Char := i.operator.name.toList ++ i.tail

private theorem toList_text (i : Instruction) :
    i.text.toList = i.token ++ (match i.operand with
      | some a => ' ' :: a.toList
      | none => []) := by
  obtain ⟨o, _ | a, _ | m⟩ := i <;> simp [text, token, tail]

private theorem Canonical.isRun_token {i : Instruction} (h : i.Canonical) : IsRun i.token := by
  refine ⟨fun hnil => name_ne_nil i.operator (List.append_eq_nil_iff.mp hnil).1, ?_⟩
  intro c hc
  rcases List.mem_append.mp hc with hname | htail
  · exact Text.not_isBlank_of_isWord (List.all_eq_true.mp (allWord_name _) c hname)
  · rcases hm : i.modifier with _ | m
    · simp [tail, hm] at htail
    · have hword : Text.allWord m.toList = true := (h.modifier m hm).2
      simp only [tail, hm, List.mem_cons, List.mem_append, List.not_mem_nil, or_false] at htail
      rcases htail with rfl | hmem | rfl
      · decide
      · exact Text.not_isBlank_of_isWord (List.all_eq_true.mp hword c hmem)
      · decide

private theorem Canonical.joined?_words {i : Instruction} (h : i.Canonical) :
    joined? (i.operand.elim [] Text.words) = i.operand := by
  rcases ha : i.operand with _ | a
  · rfl
  · obtain ⟨hne, hwords⟩ := h.operand a ha
    have hcons : Text.words a ≠ [] := by
      intro hnil
      rw [hnil] at hwords
      exact hne hwords
    rw [Option.elim_some]
    rcases hlist : Text.words a with _ | ⟨w, ws⟩
    · exact (hcons hlist).elim
    · rw [joined?, ← hlist, ← hwords]
      simp

private theorem Canonical.words_text {i : Instruction} (h : i.Canonical) :
    Text.words i.text = String.ofList i.token :: i.operand.elim [] Text.words := by
  rw [Text.words, toList_text]
  rcases ha : i.operand with _ | a
  · rw [List.append_nil, Text.runs_of_isRun h.isRun_token]
    rfl
  · rw [Text.runs_append h.isRun_token (by simp [Text.isBlank]), Text.runs_cons_of_blank (by decide)]
    rfl

private theorem parenthesized?_eq {word modifier : List Char} (hne : word ≠ [])
    (hword : Text.allWord word = true) (hmodifier : Text.allWord modifier = true) :
    parenthesized? (word ++ '(' :: (modifier ++ [')'])) = some (word, modifier) := by
  have hopen : ∀ c ∈ word, decide (c ≠ '(') = true := by
    intro c hc
    exact decide_eq_true (isWord_parenthesis (List.all_eq_true.mp hword c hc)).1
  have htake : (word ++ '(' :: (modifier ++ [')'])).takeWhile (· ≠ '(') = word := by
    rw [List.takeWhile_append_of_pos hopen, List.takeWhile_cons_of_neg (by simp), List.append_nil]
  have hdrop : (word ++ '(' :: (modifier ++ [')'])).dropWhile (· ≠ '(') =
      '(' :: (modifier ++ [')']) := by
    rw [List.dropWhile_append_of_pos hopen, List.dropWhile_cons_of_neg (by simp)]
  simp only [parenthesized?, htake, hdrop]
  simp [hne, hword, hmodifier]

private theorem splitToken_name (o : Operator) : splitToken o.name = .ok (o.name, none) := by
  cases o <;> rfl

private theorem Canonical.splitToken {i : Instruction} (h : i.Canonical) :
    splitToken (String.ofList i.token) = .ok (i.operator.name, i.modifier) := by
  rcases hm : i.modifier with _ | m
  · rw [token, tail, hm, List.append_nil, String.ofList_toList, splitToken_name]
  · obtain ⟨hne, hword⟩ := h.modifier m hm
    have hsplit := parenthesized?_eq (name_ne_nil i.operator) (allWord_name _) hword
    have hcons : m.toList ≠ [] := by simpa using hne
    rcases hlist : m.toList with _ | ⟨c, cs⟩
    · exact (hcons hlist).elim
    · rw [hlist, List.cons_append] at hsplit
      have hback : String.ofList (c :: cs) = m := by rw [← hlist, String.ofList_toList]
      simp [Instruction.splitToken, token, tail, hm, hlist, hsplit, hback]

theorem Canonical.valid {i : Instruction} (h : i.Canonical) : i.Valid := by
  intro m hm
  obtain ⟨hne, hword⟩ := h.modifier m hm
  have hrun := Text.isRun_of_allWord (by simpa using hne) hword
  exact hrun.isName

private theorem Canonical.parse_text {i : Instruction} (h : i.Canonical) : parse i.text = .ok i := by
  simp only [parse, h.words_text, h.splitToken, h.joined?_words, h.valid.make_eq]

private theorem parts_of_make {word : Value} {operand modifier : Option String} {i : Instruction}
    (h : make word (.ofText? operand) (.ofText? modifier) = .ok i) :
    i.operand = operand ∧ i.modifier = modifier := by
  have part {read? : Value → Option String} (hread : ∀ s t, read? (.text s) = some t → t = s)
      {given part : Option String} (hpart : partOf? read? (.ofText? given) = some part) :
      part = given := by
    rcases given with _ | s
    · exact (Option.some.inj hpart).symm
    · rcases part with _ | t
      · cases partOf?_eq_some_none hpart
      · rw [hread s t (partOf?_eq_some_some hpart)]
  unfold make ofValues at h
  split at h
  · rename_i o a m _ ha hm
    cases h
    refine ⟨part (fun s t hst => ?_) ha, part (fun s t hst => ?_) hm⟩
    · exact (Option.some.inj hst).symm
    · simp only [Value.name?] at hst
      split at hst
      · exact (Option.some.inj hst).symm
      · cases hst
  · cases h

private theorem canonical_joined? {ws : List String} (h : ∀ w ∈ ws, IsRun w.toList) {a : String}
    (ha : joined? ws = some a) : a ≠ "" ∧ a = " ".intercalate (Text.words a) := by
  rcases ws with _ | ⟨w, ws⟩
  · cases ha
  · obtain rfl := Option.some.inj ha
    have hwords := Text.words_intercalate h
    rw [hwords]
    refine ⟨fun hempty => ?_, rfl⟩
    rw [hempty] at hwords
    cases hwords

theorem canonical_splitToken {token word : String} {m : String}
    (h : splitToken token = .ok (word, some m)) : m ≠ "" ∧ Text.allWord m.toList = true := by
  simp only [splitToken] at h
  split at h
  · split at h
    · cases h
    · rename_i w modifier hne hsplit
      cases h
      refine ⟨fun hempty => hne ?_, ?_⟩
      · simpa using congrArg String.toList hempty
      · rw [String.toList_ofList]
        simp only [parenthesized?] at hsplit
        split at hsplit
        · split at hsplit
          · rename_i hall
            cases hsplit
            simp only [Bool.and_eq_true] at hall
            exact hall.2
          · cases hsplit
        · cases hsplit
    · cases h
  · cases h

/-- Whatever is read from a line is canonical. -/
private theorem canonical_of_parse {line : String} {i : Instruction} (h : parse line = .ok i) :
    i.Canonical := by
  unfold parse at h
  split at h
  · cases h
  · rename_i token rest hwords
    have hruns : ∀ w ∈ rest, IsRun w.toList := fun w hw =>
      Text.isRun_of_mem_words (hwords ▸ List.mem_cons_of_mem token hw)
    split at h
    · cases h
    · rename_i word modifier hsplit
      obtain ⟨hoperand, hmodifier⟩ := parts_of_make h
      refine ⟨fun a ha => ?_, fun m hm => ?_⟩
      · exact canonical_joined? hruns (hoperand ▸ ha)
      · rw [hmodifier] at hm
        exact canonical_splitToken (hm ▸ hsplit)

theorem parse_trim (line : String) : parse (Text.trim line) = parse line := by
  rw [parse, parse, Text.words_trim]

private theorem exists_cons (i : Instruction) :
    ∃ c cs, i.text.toList = c :: cs ∧ Text.isWord c = true ∧ Text.isBlank c = false := by
  rcases hname : i.operator.name.toList with _ | ⟨c, cs⟩
  · exact (name_ne_nil _ hname).elim
  · have hword : Text.isWord c = true :=
      List.all_eq_true.mp (allWord_name i.operator) c (by simp [hname])
    exact ⟨c, _, by rw [toList_text, token, hname]; rfl, hword, Text.not_isBlank_of_isWord hword⟩

private theorem isActive_text (i : Instruction) : isActive i.text = true := by
  obtain ⟨c, cs, hlist, hword, hblank⟩ := i.exists_cons
  have hne : c ≠ ';' := by
    rintro rfl
    revert hword
    decide
  simp [isActive, hlist, Text.trimBy_cons hblank, hne]

theorem Canonical.line_text {i : Instruction} (h : i.Canonical) :
    i.text ≠ "" ∧ ∀ c ∈ i.text.toList, Text.isBreak c = false := by
  constructor
  · obtain ⟨c, cs, hlist, -⟩ := i.exists_cons
    intro hempty
    rw [hempty] at hlist
    cases hlist
  · intro c hc
    rw [toList_text] at hc
    rcases List.mem_append.mp hc with htoken | hrest
    · exact Text.not_isBreak_of_not_isBlank (h.isRun_token.solid c htoken)
    · rcases ha : i.operand with _ | a
      · simp [ha] at hrest
      · simp only [ha, List.mem_cons] at hrest
        rcases hrest with rfl | hmem
        · decide
        · have hwords := (h.operand a ha).2
          rw [hwords] at hmem
          exact Text.unbroken_intercalate (fun w hw => Text.isRun_of_mem_words hw) c hmem

end Instruction

namespace Program

private theorem canonical_of_parseFrom {number : Nat} {lines : List String} {p : Program}
    (h : parseFrom number lines = .ok p) : ∀ i ∈ p, i.Canonical := by
  induction lines generalizing number p with
  | nil =>
    cases h
    simp
  | cons line rest ih =>
    unfold parseFrom at h
    split at h
    · split at h
      · cases h
      · rename_i i hline
        rcases hrest : parseFrom (number + 1) rest with fault | q
        · rw [hrest] at h
          cases h
        · rw [hrest] at h
          cases h
          intro j hj
          rcases List.mem_cons.mp hj with rfl | hj
          · exact Instruction.canonical_of_parse hline
          · exact ih hrest j hj
    · exact ih h

theorem parseFrom_texts {p : Program} (h : ∀ i ∈ p, i.Canonical) (number : Nat) :
    parseFrom number (p.map Instruction.text) = .ok p := by
  induction p generalizing number with
  | nil => rfl
  | cons i rest ih =>
    have hi := h i List.mem_cons_self
    have hrest := ih (fun j hj => h j (List.mem_cons_of_mem i hj)) (number + 1)
    simp only [List.map_cons, parseFrom, i.isActive_text, if_true, Instruction.parse_trim,
      hi.parse_text, hrest]
    rfl

theorem canonical_of_parse {text : String} {p : Program} (h : parse text = .ok p) :
    ∀ i ∈ p, i.Canonical := canonical_of_parseFrom h

private theorem parse_text_of_canonical {p : Program} (h : ∀ i ∈ p, i.Canonical) :
    parse p.text = .ok p := by
  have hlines : ∀ l ∈ p.map Instruction.text, l ≠ "" ∧ ∀ c ∈ l.toList, Text.isBreak c = false := by
    intro l hl
    obtain ⟨i, hi, rfl⟩ := List.mem_map.mp hl
    exact (h i hi).line_text
  rw [parse, text, Text.lines_intercalate hlines, parseFrom_texts h]

/-- Reading and writing fit each other exactly. An instruction comes back from its text when it is
canonical and only then; whatever a text is read as is canonical; a program of canonical
instructions comes back from its text, and so does every program that has been read. -/
theorem text_round_trip :
    (∀ i : Instruction, Instruction.parse i.text = .ok i ↔ i.Canonical) ∧
      (∀ (text : String) (p : Program), parse text = .ok p → ∀ i ∈ p, i.Canonical) ∧
      (∀ p : Program, (∀ i ∈ p, i.Canonical) → parse p.text = .ok p) ∧
      ∀ (text : String) (p : Program), parse text = .ok p → parse p.text = .ok p := by
  refine ⟨fun i => ⟨Instruction.canonical_of_parse, fun h => h.parse_text⟩, ?_, ?_, ?_⟩
  · intro text p h
    exact canonical_of_parse h
  · intro p h
    exact parse_text_of_canonical h
  · intro text p h
    exact parse_text_of_canonical (canonical_of_parse h)

/-- A note and odd blanks and breaks are gone when the program is written again. -/
theorem valve_round_trip :
    let text := "LD(N_1)   valve\t open \r\n  ; note\n\n ST Y1"
    let p : Program := [⟨.ld, some "valve open", some "N_1"⟩, ⟨.st, some "Y1", none⟩]
    parse text = .ok p ∧ (∀ i ∈ p, i.Canonical) ∧ p.text = "LD(N_1) valve open\nST Y1" ∧
      parse p.text = .ok p := by
  intro text p
  have hlines : Text.lines text = ["LD(N_1)   valve\t open ", "  ; note", "", " ST Y1"] := by decide
  have hread : parse text = .ok p := by
    rw [parse, hlines]
    rfl
  obtain ⟨-, canonical, -, again⟩ := text_round_trip
  exact ⟨hread, canonical text p hread, by rfl, again text p hread⟩

end Program

end RungLogic
