import RungLogic.Proofs.Text.Runs

/-!
Texts as they are written to files and read from them. Lines come back from a text in which each of
them ends in a line feed. When a file is read, carriage returns become line feeds: a text without
one is read as it stands, and no text has other lines when it is read.
-/

set_option autoImplicit false
set_option relaxedAutoImplicit false

namespace RungLogic.Text

private theorem feedLines_cons {c : Char} (h : c ≠ '\r') (rest : List Char) :
    feedLines (c :: rest) = c :: feedLines rest := by
  rw [feedLines]
  · rw [if_neg h]
  · rintro more rfl
    exact absurd rfl h

private theorem feedLines_eq {cs : List Char} (h : ∀ c ∈ cs, c ≠ '\r') : feedLines cs = cs := by
  induction cs with
  | nil => rfl
  | cons c cs ih =>
    rw [feedLines_cons (h c List.mem_cons_self), ih fun d hd => h d (List.mem_cons_of_mem c hd)]

/-- A text without a carriage return is read as it stands. -/
theorem readText_eq {s : String} (h : ∀ c ∈ s.toList, c ≠ '\r') : readText s = s := by
  rw [readText, feedLines_eq h, String.ofList_toList]

private theorem splitLines_feed (rest : List Char) :
    splitLines ('\n' :: rest) = [] :: splitLines rest := by
  simp [splitLines, isBreak]

private theorem splitLines_feedLines (cs : List Char) : splitLines (feedLines cs) = splitLines cs := by
  induction cs using feedLines.induct with
  | case1 => rfl
  | case2 rest ih => rw [feedLines, splitLines_feed, ih, splitLines]
  | case3 c rest other ih =>
    by_cases hc : c = '\r'
    · subst hc
      rw [feedLines, if_pos rfl, splitLines_feed, ih, splitLines]
      · simp [isBreak]
      · intro more _
        exact other more rfl
      · intro more _
        exact other more rfl
    · rw [feedLines_cons hc, splitLines, splitLines, ih]
      · rintro more rfl
        exact absurd rfl hc
      · rintro more rfl
        exact absurd rfl hc

theorem lines_readText (s : String) : lines (readText s) = lines s := by
  rw [lines, readText, String.toList_ofList, splitLines_feedLines, lines]

theorem lines_intercalate_feed {ls : List String} (some : ls ≠ [])
    (h : ∀ l ∈ ls, ∀ c ∈ l.toList, isBreak c = false) :
    lines ("\n".intercalate ls ++ "\n") = ls := by
  have split : splitLines (['\n'].intercalate (ls.map String.toList) ++ ['\n']) =
      ls.map String.toList := by
    induction ls with
    | nil => exact absurd rfl some
    | cons l ls ih =>
      have first := h l List.mem_cons_self
      cases ls with
      | nil =>
        rw [List.map_singleton, List.intercalate_singleton, splitLines_append first]
        rfl
      | cons m ls =>
        have rest := ih (List.cons_ne_nil m ls) fun k hk => h k (List.mem_cons_of_mem l hk)
        rw [List.map_cons, List.map_cons, List.intercalate_cons_cons, List.append_assoc,
          List.append_assoc, List.singleton_append, splitLines_append first, ← List.map_cons, rest]
  have list : ("\n".intercalate ls ++ "\n").toList =
      ['\n'].intercalate (ls.map String.toList) ++ ['\n'] := by
    simp [String.toList_append]
  rw [lines, list, split, List.map_map]
  simp

end RungLogic.Text
