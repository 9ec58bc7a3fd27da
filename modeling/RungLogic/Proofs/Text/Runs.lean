import Mathlib.Data.List.DropRight
import RungLogic.Proofs.Text.Breaks
import RungLogic.Text.Blank
import RungLogic.Text.Word

/-!
Words put together and taken apart again. Words joined by blanks come back as they were, and blanks
around a text do not change its words. Every line break is a blank, so no word holds one.
-/

set_option autoImplicit false
set_option relaxedAutoImplicit false

namespace RungLogic.Text

/-- A word of a text: it is not empty and holds no blank. -/
structure IsRun (w : List Char) : Prop where
  nonempty : w ≠ []
  solid : ∀ c ∈ w, isBlank c = false

private theorem runs_nil : runs [] = [] := rfl

private theorem runs_cons (c : Char) (cs : List Char) :
    runs (c :: cs) = if isBlank c then runs cs
      else match cs with
        | [] => [[c]]
        | d :: _ =>
          if isBlank d then [c] :: runs cs
          else match runs cs with
            | [] => [[c]]
            | w :: ws => (c :: w) :: ws := by
  cases cs <;> rfl

theorem runs_cons_of_blank {c : Char} (h : isBlank c = true) (cs : List Char) :
    runs (c :: cs) = runs cs := by
  rw [runs_cons, if_pos h]

/-- A word that is followed by a blank or by nothing is the first word. -/
theorem runs_append {w : List Char} (hw : IsRun w) {rest : List Char}
    (h : ∀ b ∈ rest.head?, isBlank b = true) : runs (w ++ rest) = w :: runs rest := by
  induction w with
  | nil => exact (hw.nonempty rfl).elim
  | cons c w ih =>
    have hc : isBlank c = false := hw.solid c List.mem_cons_self
    rcases w with _ | ⟨d, w⟩
    · rcases rest with _ | ⟨b, rest⟩
      · simp [runs_cons, runs_nil, hc]
      · have hb : isBlank b = true := h b rfl
        simp [runs_cons c, hc, hb]
    · have hd : isBlank d = false := hw.solid d (by simp)
      have htail : IsRun (d :: w) := ⟨by simp, fun x hx => hw.solid x (List.mem_cons_of_mem c hx)⟩
      have hrest := ih htail
      rw [List.cons_append] at hrest
      rw [List.cons_append, List.cons_append, runs_cons]
      simp only [hc, hd, hrest, Bool.false_eq_true, if_false]

theorem runs_of_isRun {w : List Char} (hw : IsRun w) : runs w = [w] := by
  have h : runs (w ++ []) = w :: runs [] := runs_append hw (by simp)
  rwa [List.append_nil] at h

private theorem runs_intercalate {ws : List (List Char)} (h : ∀ w ∈ ws, IsRun w) :
    runs ([' '].intercalate ws) = ws := by
  induction ws with
  | nil => rfl
  | cons w ws ih =>
    have hw := h w List.mem_cons_self
    have hrest := ih fun u hu => h u (List.mem_cons_of_mem w hu)
    rcases ws with _ | ⟨u, ws⟩
    · rw [List.intercalate_singleton]
      exact runs_of_isRun hw
    · rw [List.intercalate_cons_cons, List.append_assoc, List.singleton_append,
        runs_append hw (by simp [isBlank]), runs_cons_of_blank (by decide), hrest]

private theorem isRun_of_mem_runs {cs w : List Char} (h : w ∈ runs cs) : IsRun w := by
  induction cs generalizing w with
  | nil => simp [runs_nil] at h
  | cons c cs ih =>
    rw [runs_cons] at h
    split at h
    · exact ih h
    · rename_i hc
      have single : IsRun [c] := ⟨by simp, by simpa using hc⟩
      split at h
      · exact List.mem_singleton.mp h ▸ single
      · split at h
        · rcases List.mem_cons.mp h with rfl | h
          · exact single
          · exact ih h
        · split at h
          · exact List.mem_singleton.mp h ▸ single
          · rename_i v vs hruns
            rcases List.mem_cons.mp h with rfl | h
            · refine ⟨by simp, fun x hx => ?_⟩
              rcases List.mem_cons.mp hx with rfl | hx
              · simpa using hc
              · exact (ih (by rw [hruns]; exact List.mem_cons_self)).solid x hx
            · exact ih (by rw [hruns]; exact List.mem_cons_of_mem v h)

theorem isRun_of_mem_words {s w : String} (h : w ∈ words s) : IsRun w.toList := by
  obtain ⟨r, hr, rfl⟩ := List.mem_map.mp h
  rw [String.toList_ofList]
  exact isRun_of_mem_runs hr

theorem words_intercalate {ws : List String} (h : ∀ w ∈ ws, IsRun w.toList) :
    words (" ".intercalate ws) = ws := by
  have hruns : ∀ r ∈ ws.map String.toList, IsRun r := by
    simpa using h
  have hlist : (" ".intercalate ws).toList = [' '].intercalate (ws.map String.toList) := by
    simp
  simp [words, hlist, runs_intercalate hruns]

private theorem mem_intercalate {ws : List String} {c : Char} (h : c ∈ (" ".intercalate ws).toList) :
    (∃ w ∈ ws, c ∈ w.toList) ∨ c = ' ' := by
  induction ws with
  | nil => simp at h
  | cons w ws ih =>
    rcases ws with _ | ⟨u, ws⟩
    · exact .inl ⟨w, by simp, by simpa using h⟩
    · rw [String.intercalate_cons_cons, String.toList_append, String.toList_append,
        List.mem_append, List.mem_append] at h
      rcases h with (hw | hblank) | hrest
      · exact .inl ⟨w, List.mem_cons_self, hw⟩
      · exact .inr (by simpa using hblank)
      · rcases ih hrest with ⟨v, hv, hc⟩ | hblank
        · exact .inl ⟨v, List.mem_cons_of_mem w hv, hc⟩
        · exact .inr hblank

private theorem runs_of_blanks {bs : List Char} (h : ∀ b ∈ bs, isBlank b = true) : runs bs = [] := by
  induction bs with
  | nil => rfl
  | cons b bs ih =>
    rw [runs_cons_of_blank (h b List.mem_cons_self)]
    exact ih fun c hc => h c (List.mem_cons_of_mem b hc)

theorem isBlank_of_runs_eq_nil {cs : List Char} (h : runs cs = []) : ∀ c ∈ cs, isBlank c = true := by
  induction cs with
  | nil => simp
  | cons c cs ih =>
    rw [runs_cons] at h
    split at h
    · rename_i hc
      exact List.forall_mem_cons.mpr ⟨hc, ih h⟩
    · split at h
      · cases h
      · split at h
        · cases h
        · split at h <;> cases h

private theorem runs_append_blanks {bs : List Char} (h : ∀ b ∈ bs, isBlank b = true)
    (cs : List Char) : runs (cs ++ bs) = runs cs := by
  induction cs with
  | nil => exact runs_of_blanks h
  | cons c cs ih =>
    by_cases hc : isBlank c = true
    · rw [List.cons_append, runs_cons_of_blank hc, runs_cons_of_blank hc, ih]
    · rcases cs with _ | ⟨d, cs⟩
      · have hrun : IsRun [c] := ⟨by simp, by simpa using hc⟩
        have hhead : ∀ b ∈ bs.head?, isBlank b = true := fun b hb => h b (List.mem_of_mem_head? hb)
        rw [runs_append hrun hhead, runs_of_blanks h, runs_of_isRun hrun]
      · rw [List.cons_append] at ih
        rw [List.cons_append, List.cons_append, runs_cons c, runs_cons c, ih]

private theorem runs_dropWhile (cs : List Char) : runs (cs.dropWhile isBlank) = runs cs := by
  induction cs with
  | nil => rfl
  | cons c cs ih =>
    by_cases hc : isBlank c = true
    · rw [List.dropWhile_cons_of_pos hc, ih, runs_cons_of_blank hc]
    · rw [List.dropWhile_cons_of_neg hc]

theorem words_trim (s : String) : words (trim s) = words s := by
  have split (cs : List Char) : cs.rdropWhile isBlank ++ cs.rtakeWhile isBlank = cs := by
    rw [List.rdropWhile, List.rtakeWhile, ← List.reverse_append, List.takeWhile_append_dropWhile,
      List.reverse_reverse]
  have blanks (cs : List Char) : ∀ b ∈ cs.rtakeWhile isBlank, isBlank b = true := by
    intro b hb
    rw [List.rtakeWhile, List.mem_reverse] at hb
    exact List.mem_takeWhile_imp hb
  have hruns : runs (trimBy isBlank s.toList) = runs s.toList := by
    rw [← runs_dropWhile s.toList, ← split (s.toList.dropWhile isBlank),
      runs_append_blanks (blanks _)]
    rfl
  rw [words, trim, String.toList_ofList, hruns, words]

theorem trimBy_eq_nil_iff {p : Char → Bool} {cs : List Char} :
    trimBy p cs = [] ↔ ∀ c ∈ cs, p c = true := by
  rw [trimBy, List.reverse_eq_nil_iff, List.dropWhile_eq_nil_iff]
  simp only [List.mem_reverse]
  rw [← List.dropWhile_eq_nil_iff, List.dropWhile_idempotent, List.dropWhile_eq_nil_iff]

theorem trimBy_eq_self {p : Char → Bool} {cs : List Char} (h : ∀ c ∈ cs, p c = false) :
    trimBy p cs = cs := by
  have kept {ds : List Char} (hds : ∀ c ∈ ds, p c = false) : ds.dropWhile p = ds := by
    rcases ds with _ | ⟨d, ds⟩
    · rfl
    · exact List.dropWhile_cons_of_neg (by simp [hds d List.mem_cons_self])
  have backwards : ∀ c ∈ cs.reverse, p c = false := fun c hc => h c (List.mem_reverse.mp hc)
  rw [trimBy, kept h, kept backwards, List.reverse_reverse]

theorem trimBy_cons {p : Char → Bool} {c : Char} (h : p c = false) (cs : List Char) :
    trimBy p (c :: cs) = c :: cs.rdropWhile p := by
  rw [trimBy, List.dropWhile_cons_of_neg (by simp [h]), List.reverse_cons, List.dropWhile_append]
  split
  · rename_i hnil
    have hdrop : cs.reverse.dropWhile p = [] := List.isEmpty_iff.mp hnil
    simp [List.rdropWhile, hdrop, h]
  · simp [List.rdropWhile]

theorem mem_of_mem_trimBy {p : Char → Bool} {c : Char} {cs : List Char} (h : c ∈ trimBy p cs) : c ∈ cs := by
  rw [trimBy, List.mem_reverse] at h
  have inner := List.mem_reverse.mp ((List.dropWhile_sublist p).subset h)
  exact (List.dropWhile_sublist p).subset inner

theorem mem_trimBy {p : Char → Bool} {c : Char} {cs : List Char} (h : c ∈ cs) (kept : p c = false) :
    c ∈ trimBy p cs := by
  have stays {ds : List Char} (hds : c ∈ ds) : c ∈ ds.dropWhile p := by
    rw [← List.takeWhile_append_dropWhile (p := p) (l := ds)] at hds
    refine (List.mem_append.mp hds).resolve_left fun dropped => ?_
    cases kept.symm.trans (List.mem_takeWhile_imp dropped)
  exact List.mem_reverse.mpr (stays (List.mem_reverse.mpr (stays h)))

private theorem isBlank_of_isBreak {c : Char} (h : isBreak c = true) : isBlank c = true := by
  simp only [isBreak, isBlank, Bool.or_eq_true, Bool.and_eq_true, decide_eq_true_eq] at h ⊢
  rcases h with (((⟨low, high⟩ | ⟨low, high⟩) | next) | separator) | separator
  · have hlow : 9 ≤ c.toNat := by omega
    simp [hlow, high]
  · have hhigh : c.toNat ≤ 32 := by omega
    simp [low, hhigh]
  · simp [next]
  · simp [separator]
  · simp [separator]

theorem not_isBreak_of_not_isBlank {c : Char} (h : isBlank c = false) : isBreak c = false := by
  by_contra hbreak
  rw [isBlank_of_isBreak (by simpa using hbreak)] at h
  cases h

theorem IsRun.unbroken {w : String} (h : IsRun w.toList) : Unbroken w :=
  fun c hc => not_isBreak_of_not_isBlank (h.solid c hc)

theorem IsRun.isName {w : String} (h : IsRun w.toList) : isName w = true := by
  obtain ⟨c, hc⟩ := List.exists_mem_of_ne_nil _ h.nonempty
  exact List.any_eq_true.mpr ⟨c, hc, by simp [h.solid c hc]⟩

theorem unbroken_intercalate {ws : List String} (h : ∀ w ∈ ws, IsRun w.toList) :
    Unbroken (" ".intercalate ws) := by
  intro c hc
  rcases mem_intercalate hc with ⟨w, hw, hcw⟩ | rfl
  · exact (h w hw).unbroken c hcw
  · decide

private def blankCodes : List Nat :=
  [9, 10, 11, 12, 13, 28, 29, 30, 31, 32, 0x85, 0xA0, 0x1680, 0x2000, 0x2001, 0x2002, 0x2003, 0x2004,
    0x2005, 0x2006, 0x2007, 0x2008, 0x2009, 0x200A, 0x2028, 0x2029, 0x202F, 0x205F, 0x3000]

private theorem mem_blankCodes {c : Char} (h : isBlank c = true) : c.toNat ∈ blankCodes := by
  have controls : ∀ k ∈ List.range' 9 5, k ∈ blankCodes := by decide
  have separators : ∀ k ∈ List.range' 28 5, k ∈ blankCodes := by decide
  have quads : ∀ k ∈ List.range' 0x2000 11, k ∈ blankCodes := by decide
  have others : ∀ k ∈ [0x85, 0xA0, 0x1680, 0x2028, 0x2029, 0x202F, 0x205F, 0x3000],
      k ∈ blankCodes := by decide
  simp only [isBlank, Bool.or_eq_true, Bool.and_eq_true, decide_eq_true_eq] at h
  rcases h with (((((((((⟨low, high⟩ | ⟨low, high⟩) | h) | h) | h) | ⟨low, high⟩) | h) | h) | h) | h) |
    h
  · exact controls _ (List.mem_range'_1.mpr ⟨low, by omega⟩)
  · exact separators _ (List.mem_range'_1.mpr ⟨low, by omega⟩)
  · exact others _ (by simp [h])
  · exact others _ (by simp [h])
  · exact others _ (by simp [h])
  · exact quads _ (List.mem_range'_1.mpr ⟨low, by omega⟩)
  all_goals exact others _ (by simp [h])

theorem not_isBlank_of_isWord {c : Char} (h : isWord c = true) : isBlank c = false := by
  by_contra hblank
  have hcode := mem_blankCodes (by simpa using hblank)
  have hnone : ∀ k ∈ blankCodes, isWord (Char.ofNat k) = false := by decide +kernel
  have hword := hnone _ hcode
  rw [Char.ofNat_toNat, h] at hword
  cases hword

theorem isRun_of_allWord {cs : List Char} (hne : cs ≠ []) (h : allWord cs = true) : IsRun cs :=
  ⟨hne, fun c hc => not_isBlank_of_isWord (List.all_eq_true.mp h c hc)⟩

end RungLogic.Text
