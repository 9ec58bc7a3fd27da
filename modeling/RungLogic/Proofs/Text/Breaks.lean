import Mathlib.Data.List.Basic
import RungLogic.Text.Lines
import RungLogic.Text.Quoted

/-!
Where a text breaks into lines. Each line but the last is followed by what ends it, and a carriage return
with the line feed after it ends one line. So lines are joined by line feeds and found again, and the lines
of two texts with a line feed between them are those of the first text with the line feed, then those of
the second.
-/

set_option autoImplicit false
set_option relaxedAutoImplicit false

namespace RungLogic.Text

/-- `EndsLine e rest` says that `e` ends a line when `rest` comes after it. -/
inductive EndsLine : List Char → List Char → Prop
  | pair (rest : List Char) : EndsLine ['\r', '\n'] rest
  | single {c : Char} {rest : List Char} : isBreak c = true → (c = '\r' → rest.head? ≠ some '\n') →
      EndsLine [c] rest

/-- A text and its lines: each holds no break, and nothing follows the last one unless it is ended. -/
inductive Lined : List Char → List (List Char) → Prop
  | nil : Lined [] []
  | last {l : List Char} : l ≠ [] → (∀ c ∈ l, isBreak c = false) → Lined l [l]
  | cons {l e rest : List Char} {ls : List (List Char)} : (∀ c ∈ l, isBreak c = false) →
      EndsLine e rest → Lined rest ls → Lined (l ++ (e ++ rest)) (l :: ls)

private theorem splitLines_of_isBreak {c : Char} {rest : List Char} (h : isBreak c = true)
    (alone : c = '\r' → rest.head? ≠ some '\n') : splitLines (c :: rest) = [] :: splitLines rest := by
  rw [splitLines]
  · rw [if_pos h]
  · rintro more rfl rfl
    exact alone rfl rfl

private theorem splitLines_cons {c : Char} (h : isBreak c = false) (cs : List Char) :
    splitLines (c :: cs) = match splitLines cs with
      | [] => [[c]]
      | l :: ls => (c :: l) :: ls := by
  rw [splitLines]
  · rcases splitLines cs with _ | ⟨l, ls⟩ <;> simp [h]
  · rintro rest rfl
    cases h

private theorem splitLines_ended {l e rest : List Char} (h : ∀ c ∈ l, isBreak c = false)
    (ends : EndsLine e rest) : splitLines (l ++ (e ++ rest)) = l :: splitLines rest := by
  induction l with
  | nil =>
    cases ends with
    | pair => rfl
    | single isBreak alone => exact splitLines_of_isBreak isBreak alone
  | cons c l ih =>
    rw [List.cons_append, splitLines_cons (h c List.mem_cons_self),
      ih fun d hd => h d (List.mem_cons_of_mem c hd)]

theorem splitLines_append {l : List Char} (h : ∀ c ∈ l, isBreak c = false) (rest : List Char) :
    splitLines (l ++ '\n' :: rest) = l :: splitLines rest :=
  splitLines_ended h (.single (by decide) (by simp))

private theorem splitLines_line {l : List Char} (hl : l ≠ []) (h : ∀ c ∈ l, isBreak c = false) :
    splitLines l = [l] := by
  induction l with
  | nil => exact (hl rfl).elim
  | cons c l ih =>
    rw [splitLines_cons (h c List.mem_cons_self)]
    rcases l with _ | ⟨d, l⟩
    · rfl
    · rw [ih (by simp) fun e he => h e (List.mem_cons_of_mem c he)]

theorem lines_intercalate {ls : List String}
    (h : ∀ l ∈ ls, l ≠ "" ∧ ∀ c ∈ l.toList, isBreak c = false) :
    lines ("\n".intercalate ls) = ls := by
  have hsplit : splitLines (['\n'].intercalate (ls.map String.toList)) = ls.map String.toList := by
    induction ls with
    | nil => rfl
    | cons l ls ih =>
      obtain ⟨hl, hbreak⟩ := h l List.mem_cons_self
      have hrest := ih fun m hm => h m (List.mem_cons_of_mem l hm)
      rcases ls with _ | ⟨m, ls⟩
      · have hne : l.toList ≠ [] := by simpa using hl
        rw [List.map_singleton, List.intercalate_singleton, splitLines_line hne hbreak]
      · rw [List.map_cons, List.map_cons, List.intercalate_cons_cons, List.append_assoc,
          List.singleton_append, splitLines_append hbreak, ← List.map_cons, hrest]
  have hlist : ("\n".intercalate ls).toList = ['\n'].intercalate (ls.map String.toList) := by
    simp
  simp [lines, hlist, hsplit]

private theorem lined_cons {c : Char} (h : isBreak c = false) {cs : List Char}
    (lined : Lined cs (splitLines cs)) : Lined (c :: cs) (splitLines (c :: cs)) := by
  rw [splitLines_cons h]
  generalize splitLines cs = ls at lined ⊢
  cases lined with
  | nil => exact .last (by simp) (by simpa using h)
  | last _ solid => exact .last (by simp) (List.forall_mem_cons.mpr ⟨h, solid⟩)
  | cons solid ends rest => exact .cons (List.forall_mem_cons.mpr ⟨h, solid⟩) ends rest

private theorem lined_splitLines (cs : List Char) : Lined cs (splitLines cs) := by
  induction cs using splitLines.induct with
  | case1 => exact .nil
  | case2 rest ih => exact .cons (l := []) (by simp) (.pair rest) ih
  | case3 c rest notPair isBreak ih =>
    have alone : c = '\r' → rest.head? ≠ some '\n' := by
      rintro rfl feed
      obtain ⟨more, rfl⟩ := List.head?_eq_some_iff.mp feed
      exact notPair more rfl rfl
    rw [splitLines_of_isBreak isBreak alone]
    exact .cons (l := []) (by simp) (.single isBreak alone) ih
  | case4 c rest _ unbroken _ ih => exact lined_cons (by simpa using unbroken) ih
  | case5 c rest _ unbroken _ _ _ ih => exact lined_cons (by simpa using unbroken) ih

/-- Splitting gives the lines of a text and nothing else does. -/
theorem lined_iff {cs : List Char} {ls : List (List Char)} : Lined cs ls ↔ splitLines cs = ls := by
  constructor
  · intro lined
    induction lined with
    | nil => rfl
    | last some solid => exact splitLines_line some solid
    | cons solid ends _ ih => rw [splitLines_ended solid ends, ih]
  · rintro rfl
    exact lined_splitLines cs

private theorem EndsLine.append {e rest : List Char} (ends : EndsLine e rest) (some : rest ≠ [])
    (more : List Char) : EndsLine e (rest ++ more) := by
  cases ends with
  | pair => exact .pair _
  | single isBreak alone =>
    rw [← List.head?_append_of_ne_nil rest some] at alone
    exact .single isBreak alone

private theorem EndsLine.ne_nil {e rest : List Char} (ends : EndsLine e rest) : e ≠ [] := by
  cases ends <;> exact List.cons_ne_nil _ _

private theorem EndsLine.of_feed {e rest : List Char} (ends : EndsLine e rest)
    (feed : e.getLast? = some '\n') (more : List Char) : EndsLine e more := by
  cases ends with
  | pair => exact .pair more
  | @single c rest isBreak =>
    obtain rfl : c = '\n' := Option.some.inj feed
    exact .single isBreak (by simp)

private theorem Lined.eq_nil {ls : List (List Char)} (lined : Lined [] ls) : ls = [] :=
  (lined_iff.mp lined).symm

/-- A text that ends in a line feed has its lines before those of what comes after it. -/
private theorem Lined.append {cs ds : List Char} {ls ms : List (List Char)} (lined : Lined cs ls)
    (feed : cs.getLast? = some '\n') (more : Lined ds ms) : Lined (cs ++ ds) (ls ++ ms) := by
  induction lined with
  | nil => cases feed
  | @last l _ solid =>
    have breaks := solid '\n' (List.mem_of_getLast? feed)
    cases breaks
  | @cons l e rest ls solid ends lined ih =>
    rw [List.append_assoc, List.append_assoc, List.cons_append]
    by_cases empty : rest = []
    · subst empty
      rw [lined.eq_nil]
      have fed : e.getLast? = some '\n' := by
        rwa [List.append_nil, List.getLast?_append_of_ne_nil _ ends.ne_nil] at feed
      exact .cons solid (ends.of_feed fed _) more
    · have fed : rest.getLast? = some '\n' := by
        rwa [← List.append_assoc, List.getLast?_append_of_ne_nil _ empty] at feed
      exact .cons solid (ends.append empty _) (ih fed)

private theorem Lined.feed {cs : List Char} {ls : List (List Char)} (lined : Lined cs ls) :
    Lined (cs ++ ['\n']) ls ∨ Lined (cs ++ ['\n']) (ls ++ [[]]) := by
  have alone : EndsLine ['\n'] [] := .single (by decide) (by simp)
  have empty : Lined ['\n'] [[]] := .cons (l := []) (by simp) alone .nil
  induction lined with
  | nil => exact .inr empty
  | last _ solid => exact .inl (.cons solid alone .nil)
  | @cons l e rest ls solid ends lined ih =>
    rw [List.append_assoc, List.append_assoc]
    by_cases last : rest = []
    · subst last
      rw [lined.eq_nil]
      cases ends with
      | pair => exact .inr (.cons solid (.pair _) empty)
      | @single c _ isBreak =>
        by_cases carriage : c = '\r'
        · subst carriage
          have joined : Lined (l ++ (['\r', '\n'] ++ [])) [l] := .cons solid (.pair []) .nil
          exact .inl joined
        · exact .inr (.cons solid (.single isBreak fun same => absurd same carriage) empty)
    · exact ih.imp (.cons solid (ends.append last _)) (.cons solid (ends.append last _))

theorem lines_append_feed (a b : String) : lines (a ++ "\n" ++ b) = lines (a ++ "\n") ++ lines b := by
  have fed : (a ++ "\n").toList.getLast? = some '\n' := by simp
  have joined := (lined_splitLines _).append fed (lined_splitLines b.toList)
  rw [lines, lines, lines, String.toList_append, lined_iff.mp joined, List.map_append]

theorem lines_feed (a : String) : lines (a ++ "\n") = lines a ∨ lines (a ++ "\n") = lines a ++ [""] := by
  have feed : (a ++ "\n").toList = a.toList ++ ['\n'] := by simp
  rcases (lined_splitLines a.toList).feed with same | more
  · exact .inl (by rw [lines, lines, feed, lined_iff.mp same])
  · exact .inr (by rw [lines, lines, feed, lined_iff.mp more, List.map_append]; rfl)

/-- A text without line breaks. -/
def Unbroken (s : String) : Prop := ∀ c ∈ s.toList, isBreak c = false

instance (s : String) : Decidable (Unbroken s) :=
  decidable_of_iff (s.toList.all (fun c => !isBreak c) = true) (by simp [Unbroken])

theorem Unbroken.append {s t : String} (hs : Unbroken s) (ht : Unbroken t) : Unbroken (s ++ t) := by
  intro c hc
  rw [String.toList_append, List.mem_append] at hc
  exact hc.elim (hs c) (ht c)

theorem Unbroken.lines_eq {s : String} (h : Unbroken s) (some : s ≠ "") : lines s = [s] := by
  rw [lines, splitLines_line (by simpa using some) h]
  simp

private theorem isBreak_hexDigit {n : Nat} (h : n < 16) : isBreak (hexDigit n) = false := by
  revert n
  decide

private theorem isBreak_of_mem_hexDigits {width n : Nat} {c : Char} (h : c ∈ hexDigits width n) :
    isBreak c = false := by
  induction width generalizing n with
  | zero => cases h
  | succ width ih =>
    rw [hexDigits, List.mem_append, List.mem_singleton] at h
    rcases h with h | rfl
    · exact ih h
    · exact isBreak_hexDigit (Nat.mod_lt _ (by decide))

private theorem isBreak_of_mem_escapeIn {q c d : Char} (hc : isBreak c = false) (hd : d ∈ escapeIn q c) :
    isBreak d = false := by
  have escaped {e : Char} (he : isBreak e = false) (h : d ∈ ['\\', e]) : isBreak d = false := by
    rcases List.mem_pair.mp h with rfl | rfl
    · decide
    · exact he
  have coded {mark : Char} {width : Nat} (hmark : isBreak mark = false)
      (h : d ∈ '\\' :: mark :: hexDigits width c.toNat) : isBreak d = false := by
    rcases List.mem_cons.mp h with rfl | h
    · decide
    · rcases List.mem_cons.mp h with rfl | h
      · exact hmark
      · exact isBreak_of_mem_hexDigits h
  simp only [escapeIn] at hd
  split_ifs at hd
  · exact escaped hc hd
  · exact escaped (by decide) hd
  · exact escaped (by decide) hd
  · exact escaped (by decide) hd
  · exact List.mem_singleton.mp hd ▸ hc
  · exact coded (by decide) hd
  · exact coded (by decide) hd
  · exact coded (by decide) hd

theorem Unbroken.quoted {s : String} (h : Unbroken s) : Unbroken (quoted s) := by
  have mark : isBreak (quoteFor s.toList) = false := by
    unfold quoteFor
    split <;> decide
  intro c hc
  simp only [Text.quoted, String.toList_ofList, List.mem_append, List.mem_cons, List.mem_flatMap,
    List.not_mem_nil, or_false] at hc
  rcases hc with (rfl | ⟨d, hd, hc⟩) | rfl
  · exact mark
  · exact isBreak_of_mem_escapeIn (h d hd) hc
  · exact mark

end RungLogic.Text
