import RungLogic.Path

/-!
Paths and their parts. The parts of a path are put together again with slashes, and what is put
together has these parts; so a path and its normal form name the same place, and different places
have different names.
-/

set_option autoImplicit false
set_option relaxedAutoImplicit false

namespace RungLogic.Path

/-- A name in a path: neither empty nor a single point, and without a slash. -/
structure IsPart (p : String) : Prop where
  nonempty : p ≠ ""
  noPoint : p ≠ "."
  solid : '/' ∉ p.toList

/-- Parts of paths: names, perhaps behind the slash of the root. -/
inductive Proper : List String → Prop
  | below {ps : List String} (each : ∀ p ∈ ps, IsPart p) : Proper ps
  | root {ps : List String} (each : ∀ p ∈ ps, IsPart p) : Proper ("/" :: ps)

private theorem pieces_ne_nil (cs : List Char) : pieces cs ≠ [] := by
  cases cs with
  | nil => simp [pieces]
  | cons c rest =>
    unfold pieces
    split
    · simp
    · split <;> simp

private theorem pieces_cons {c : Char} (h : c ≠ '/') {rest p : List Char} {ps : List (List Char)}
    (others : pieces rest = p :: ps) : pieces (c :: rest) = (c :: p) :: ps := by
  rw [pieces, if_neg h, others]

private theorem solid_of_mem_pieces {cs p : List Char} (h : p ∈ pieces cs) : '/' ∉ p := by
  induction cs generalizing p with
  | nil =>
    rw [pieces, List.mem_singleton] at h
    simp [h]
  | cons c rest ih =>
    by_cases hc : c = '/'
    · rw [pieces, if_pos hc] at h
      rcases List.mem_cons.mp h with rfl | h
      · simp
      · exact ih h
    · obtain ⟨q, qs, hq⟩ := List.exists_cons_of_ne_nil (pieces_ne_nil rest)
      rw [pieces_cons hc hq] at h
      rcases List.mem_cons.mp h with rfl | h
      · have own := ih (p := q) (by rw [hq]; exact List.mem_cons_self)
        simp [own, Ne.symm hc]
      · exact ih (by rw [hq]; exact List.mem_cons_of_mem q h)

private theorem pieces_solid {l : List Char} (h : '/' ∉ l) : pieces l = [l] := by
  induction l with
  | nil => rfl
  | cons c l ih =>
    rw [List.mem_cons, not_or] at h
    exact pieces_cons (Ne.symm h.1) (ih h.2)

private theorem pieces_append {l : List Char} (h : '/' ∉ l) (rest : List Char) :
    pieces (l ++ '/' :: rest) = l :: pieces rest := by
  induction l with
  | nil => rw [List.nil_append, pieces, if_pos rfl]
  | cons c l ih =>
    rw [List.mem_cons, not_or] at h
    exact pieces_cons (Ne.symm h.1) (ih h.2)

private theorem pieces_intercalate {ps : List (List Char)} (hne : ps ≠ []) (h : ∀ p ∈ ps, '/' ∉ p) :
    pieces (['/'].intercalate ps) = ps := by
  induction ps with
  | nil => exact absurd rfl hne
  | cons p ps ih =>
    have own := h p List.mem_cons_self
    cases ps with
    | nil => rw [List.intercalate_singleton, pieces_solid own]
    | cons q ps =>
      have others := ih (by simp) fun r hr => h r (List.mem_cons_of_mem p hr)
      rw [List.intercalate_cons_cons, List.append_assoc, List.singleton_append,
        pieces_append own, others]

private def named (cs : List Char) : List String :=
  ((pieces cs).map String.ofList).filter fun p => p ≠ "" && p ≠ "."

private theorem parts_eq (path : String) :
    parts path = if path.toList.head? = some '/' then "/" :: named path.toList
      else named path.toList := rfl

private theorem isPart_of_mem_named {cs : List Char} {p : String} (h : p ∈ named cs) :
    IsPart p := by
  obtain ⟨hmem, kept⟩ := List.mem_filter.mp h
  obtain ⟨l, hl, rfl⟩ := List.mem_map.mp hmem
  simp only [Bool.and_eq_true, decide_eq_true_eq] at kept
  refine ⟨kept.1, kept.2, ?_⟩
  rw [String.toList_ofList]
  exact solid_of_mem_pieces hl

theorem proper_parts (path : String) : Proper (parts path) := by
  rw [parts_eq]
  split
  · exact .root fun p hp => isPart_of_mem_named hp
  · exact .below fun p hp => isPart_of_mem_named hp

private theorem named_of_pieces {cs : List Char} {ps : List String} (h : ∀ p ∈ ps, IsPart p)
    (pieces_eq : pieces cs = ps.map String.toList ∨ pieces cs = [] :: ps.map String.toList ∨
      pieces cs = [] :: [] :: ps.map String.toList) : named cs = ps := by
  have kept : ps.filter (fun p => p ≠ "" && p ≠ ".") = ps := by
    apply List.filter_eq_self.mpr
    intro p hp
    simp [(h p hp).nonempty, (h p hp).noPoint]
  have back : (ps.map String.toList).map String.ofList = ps := by
    simp [List.map_map, Function.comp_def]
  unfold named
  rcases pieces_eq with same | same | same
  · rw [same, back, kept]
  · rw [same, List.map_cons, back]
    simpa using kept
  · rw [same, List.map_cons, List.map_cons, back]
    simpa using kept

private theorem head_intercalate {ps : List String} (h : ∀ p ∈ ps, IsPart p) :
    (['/'].intercalate (ps.map String.toList)).head? ≠ some '/' := by
  cases ps with
  | nil => simp
  | cons p ps =>
    obtain ⟨nonempty, -, solid⟩ := h p List.mem_cons_self
    obtain ⟨c, cs, hcs⟩ := List.exists_cons_of_ne_nil (l := p.toList) (by simpa using nonempty)
    have hc : c ≠ '/' := by
      rintro rfl
      exact solid (by rw [hcs]; exact List.mem_cons_self)
    cases ps with
    | nil => simpa [hcs] using hc
    | cons q ps => simpa [List.intercalate_cons_cons, hcs] using hc

private theorem toList_intercalate (ps : List String) :
    ("/".intercalate ps).toList = ['/'].intercalate (ps.map String.toList) := by
  simp

private theorem pieces_names {ps : List String} (hne : ps ≠ []) (each : ∀ p ∈ ps, IsPart p) :
    pieces (['/'].intercalate (ps.map String.toList)) = ps.map String.toList := by
  apply pieces_intercalate (by simpa using hne)
  intro l hl
  obtain ⟨p, hp, rfl⟩ := List.mem_map.mp hl
  exact (each p hp).solid

theorem parts_intercalate {ps : List String} (h : Proper ps) :
    parts ("/".intercalate ps) = ps := by
  rw [parts_eq, toList_intercalate]
  cases h with
  | below each =>
    rw [if_neg (head_intercalate each)]
    cases ps with
    | nil => rfl
    | cons p ps => exact named_of_pieces each (.inl (pieces_names (by simp) each))
  | @root ps each =>
    cases ps with
    | nil => rfl
    | cons p ps =>
      have made : ['/'].intercalate (("/" :: p :: ps).map String.toList) =
          '/' :: '/' :: ['/'].intercalate ((p :: ps).map String.toList) := by
        simp [List.intercalate_cons_cons]
      rw [made, List.head?_cons, if_pos rfl, named_of_pieces each]
      right
      right
      rw [pieces, if_pos rfl, pieces, if_pos rfl, pieces_names (by simp) each]

theorem parts_normal (path : String) : parts (normal path) = parts path := by
  have proper := proper_parts path
  rw [normal]
  generalize parts path = ps at proper
  cases proper with
  | below each =>
    split
    · rfl
    · exact absurd (List.mem_singleton_self '/') (each "/" List.mem_cons_self).solid
    · exact parts_intercalate (.below each)
  | @root ps each =>
    show parts ("/" ++ "/".intercalate ps) = "/" :: ps
    have text : ("/" ++ "/".intercalate ps).toList =
        '/' :: ['/'].intercalate (ps.map String.toList) := by
      rw [String.toList_append, toList_intercalate]
      rfl
    rw [parts_eq, text, List.head?_cons, if_pos rfl]
    cases ps with
    | nil => rfl
    | cons p ps =>
      rw [named_of_pieces each]
      right
      left
      rw [pieces, if_pos rfl, pieces_names (by simp) each]

theorem Proper.take {ps : List String} (h : Proper ps) (k : Nat) : Proper (ps.take k) := by
  cases h with
  | below each => exact .below fun p hp => each p (List.mem_of_mem_take hp)
  | @root ps each =>
    cases k with
    | zero => exact .below (by simp)
    | succ k =>
      rw [List.take_succ_cons]
      exact .root fun p hp => each p (List.mem_of_mem_take hp)

end RungLogic.Path
