import Mathlib.Data.List.Infix
import RungLogic.Proofs.Drawing.Lines

/-!
Drawings in DOT, read back. A backslash escapes a quote or another backslash behind it, and a quote that is
not escaped ends a string. Labels are escaped so that they are read as they are. Ids of elements are not, so
a drawing says what it is to say exactly if each of them stands for itself.
-/

set_option autoImplicit false
set_option relaxedAutoImplicit false

namespace RungLogic

namespace Dot

/-- Where the reading of a text has come to: outside of strings, within one, or behind a backslash there. -/
inductive Place where
  | outside | inside | escaped
  deriving DecidableEq, Repr

/-- The quoted strings of a text from a place on; within a string the first is the rest of it. There are
none when a string does not end. -/
def strings : Place → List Char → Option (List (List Char))
  | .outside, [] => some []
  | _, [] => none
  | .outside, c :: rest => strings (if c = '"' then .inside else .outside) rest
  | .inside, c :: rest =>
    if c = '"' then (strings .outside rest).map ([] :: ·)
    else if c = '\\' then strings .escaped rest
    else (strings .inside rest).map (List.modifyHead (c :: ·))
  | .escaped, c :: rest =>
    (strings .inside rest).map
      (List.modifyHead ((if c = '"' ∨ c = '\\' then [c] else ['\\', c]) ++ ·))

def quoted (text : String) : Option (List String) :=
  (strings .outside text.toList).map (List.map String.ofList)

/-- A text that stands for itself between quotes. -/
structure IsVerbatim (s : List Char) : Prop where
  noQuote : '"' ∉ s
  noPair : ¬ ['\\', '\\'] <:+: s
  noLast : s.getLast? ≠ some '\\'

instance (s : List Char) : Decidable (IsVerbatim s) :=
  decidable_of_iff ('"' ∉ s ∧ ¬ ['\\', '\\'] <:+: s ∧ s.getLast? ≠ some '\\')
    ⟨fun ⟨q, p, l⟩ => ⟨q, p, l⟩, fun ⟨q, p, l⟩ => ⟨q, p, l⟩⟩

variable {c : Char} {s : List Char}

private theorem isVerbatim_nil : IsVerbatim [] := by decide

private theorem isVerbatim_cons (quote : c ≠ '"') (slash : c ≠ '\\') :
    IsVerbatim (c :: s) ↔ IsVerbatim s := by
  have pair : ['\\', '\\'] <:+: c :: s ↔ ['\\', '\\'] <:+: s := by
    simp [List.infix_cons_iff, List.cons_prefix_cons, slash.symm]
  have last : (c :: s).getLast? = some '\\' ↔ s.getLast? = some '\\' := by
    cases s <;> simp [slash]
  constructor
  · rintro ⟨q, p, l⟩
    exact ⟨fun h => q (List.mem_cons_of_mem c h), mt pair.mpr p, mt last.mpr l⟩
  · rintro ⟨q, p, l⟩
    exact ⟨by simp [quote.symm, q], mt pair.mp p, mt last.mp l⟩

private theorem isVerbatim_slash_cons :
    IsVerbatim ('\\' :: c :: s) ↔ c ≠ '"' ∧ c ≠ '\\' ∧ IsVerbatim s := by
  by_cases quote : c = '"'
  · exact ⟨fun h => absurd h.noQuote (by simp [quote]), fun h => absurd quote h.1⟩
  by_cases slash : c = '\\'
  · exact ⟨fun h => absurd h.noPair (by simp [slash, List.infix_cons_iff]), fun h => absurd slash h.2.1⟩
  have pair : ['\\', '\\'] <:+: '\\' :: c :: s ↔ ['\\', '\\'] <:+: c :: s := by
    simp [List.infix_cons_iff, List.cons_prefix_cons, Ne.symm slash]
  have last : ('\\' :: c :: s).getLast? = (c :: s).getLast? := by simp
  have shorter : IsVerbatim ('\\' :: c :: s) ↔ IsVerbatim (c :: s) := by
    constructor
    · rintro ⟨q, p, l⟩
      exact ⟨fun h => q (List.mem_cons_of_mem _ h), mt pair.mpr p, last ▸ l⟩
    · rintro ⟨q, p, l⟩
      exact ⟨by simpa using q, mt pair.mp p, last ▸ l⟩
  rw [shorter, isVerbatim_cons quote slash]
  exact ⟨fun h => ⟨quote, slash, h⟩, fun h => h.2.2⟩

private theorem isVerbatim_of_plain (plain : ∀ c ∈ s, c ≠ '"' ∧ c ≠ '\\') : IsVerbatim s := by
  induction s with
  | nil => exact isVerbatim_nil
  | cons c s ih =>
    obtain ⟨quote, slash⟩ := plain c List.mem_cons_self
    exact (isVerbatim_cons quote slash).mpr (ih fun d hd => plain d (List.mem_cons_of_mem c hd))

private theorem strings_gap (gap : '"' ∉ s) (rest : List Char) :
    strings .outside (s ++ rest) = strings .outside rest := by
  induction s with
  | nil => rfl
  | cons c s ih =>
    obtain ⟨first, others⟩ := not_or.mp (mt List.mem_cons.mpr gap)
    rw [List.cons_append, strings, if_neg (Ne.symm first)]
    exact ih others

private theorem strings_escapeQuotes (s : String) (rest : List Char) :
    strings .inside ((Network.escapeQuotes s).toList ++ '"' :: rest) =
      (strings .outside rest).map (s.toList :: ·) := by
  rw [Network.escapeQuotes, String.toList_ofList]
  induction s.toList with
  | nil => rfl
  | cons c s ih =>
    rw [List.flatMap_cons, List.append_assoc]
    have next := congrArg (Option.map (List.modifyHead (c :: ·))) ih
    rw [Option.map_map] at next
    by_cases special : c = '"' ∨ c = '\\'
    · have escaped : (c = '"' || c = '\\') = true := by simpa using special
      rw [if_pos escaped, List.cons_append, List.singleton_append, strings, if_neg (by decide),
        if_pos rfl, strings, if_pos special]
      exact next
    · have plain : (c = '"' || c = '\\') = false := by simpa using special
      obtain ⟨quote, slash⟩ := not_or.mp special
      rw [plain, if_neg Bool.false_ne_true, List.singleton_append, strings, if_neg quote,
        if_neg slash]
      exact next

/-- A text that stands for itself is read as it is. The induction goes with what is left of it, also behind a
backslash. -/
private theorem strings_verbatim (s rest : List Char) :
    (IsVerbatim s → strings .inside (s ++ '"' :: rest) = (strings .outside rest).map (s :: ·)) ∧
      (IsVerbatim ('\\' :: s) →
        strings .escaped (s ++ '"' :: rest) = (strings .outside rest).map (('\\' :: s) :: ·)) := by
  induction s with
  | nil => exact ⟨fun _ => rfl, fun h => absurd h (by decide)⟩
  | cons c s ih =>
    refine ⟨fun h => ?_, fun h => ?_⟩
    · have quote : c ≠ '"' := fun same => h.noQuote (by simp [same])
      rw [List.cons_append, strings, if_neg quote]
      by_cases slash : c = '\\'
      · subst slash
        rw [if_pos rfl]
        exact ih.2 h
      · rw [if_neg slash, ih.1 ((isVerbatim_cons quote slash).mp h), Option.map_map]
        rfl
    · obtain ⟨quote, slash, tail⟩ := isVerbatim_slash_cons.mp h
      rw [List.cons_append, strings, if_neg (by simp [quote, slash]), ih.1 tail, Option.map_map]
      rfl

/-- What is read for a text before a gap is shorter than the text, or the text ends in a backslash and what
is read goes on to the end of the gap. -/
def Misread (gap s t : List Char) : Prop :=
  t.length < s.length ∨ (gap <:+ t ∧ ['\\'] <:+ s)

variable {gap t : List Char}

private theorem Misread.cons (h : Misread gap s t) (c d : Char) : Misread gap (c :: s) (d :: t) := by
  rcases h with short | ⟨past, slash⟩
  · exact .inl (Nat.succ_lt_succ short)
  · exact .inr ⟨past.trans (List.suffix_cons d t), slash.trans (List.suffix_cons c s)⟩

private theorem misread_escape {u : List Char} (h : u = s ∨ Misread gap s u) (c : Char) :
    Misread gap ('\\' :: c :: s) (c :: u) := by
  rcases h with rfl | short | ⟨past, slash⟩
  · exact .inl (Nat.lt_succ_self _)
  · exact .inl (Nat.lt_succ_of_lt (Nat.succ_lt_succ short))
  · exact .inr ⟨past.trans (List.suffix_cons c u),
      slash.trans ((List.suffix_cons c s).trans (List.suffix_cons '\\' _))⟩

private theorem Misread.ne (some : gap ≠ []) (verbatim : IsVerbatim gap) (h : Misread gap s t) : t ≠ s := by
  rintro rfl
  rcases h with short | ⟨⟨before, past⟩, ⟨start, slash⟩⟩
  · exact Nat.lt_irrefl _ short
  · have last : t.getLast? = gap.getLast? := by
      rw [← past, List.getLast?_append_of_ne_nil _ some]
    rw [← slash, List.getLast?_append] at last
    exact verbatim.noLast last.symm

private theorem map_modifyHead_eq_some {f : List Char → List Char} {found : Option (List (List Char))}
    {more : List (List Char)} (h : found.map (List.modifyHead f) = some (t :: more)) :
    ∃ u, found = some (u :: more) ∧ f u = t := by
  obtain ⟨ss, rfl, head⟩ := Option.map_eq_some_iff.mp h
  cases ss with
  | nil => cases head
  | cons u others =>
    obtain ⟨same, rfl⟩ := List.cons.inj head
    exact ⟨u, rfl, same⟩

/-- What is read for a text before a gap is a text that stands for itself, or it is misread. The induction
goes with what is left of the text, also behind a backslash. -/
private theorem verbatim_or_misread (verbatim : IsVerbatim gap) (s rest : List Char) :
    (∀ t more, strings .inside (s ++ '"' :: (gap ++ '"' :: rest)) = some (t :: more) →
      (IsVerbatim s ∧ t = s) ∨ Misread gap s t) ∧
    (∀ t more, strings .escaped (s ++ '"' :: (gap ++ '"' :: rest)) = some (t :: more) →
      (IsVerbatim ('\\' :: s) ∧ t = '\\' :: s) ∨ Misread gap ('\\' :: s) t) := by
  induction s with
  | nil =>
    constructor
    · intro t more h
      obtain ⟨ss, -, found⟩ := Option.map_eq_some_iff.mp h
      exact .inl ⟨isVerbatim_nil, (List.cons.inj found).1.symm⟩
    · intro t more h
      -- A backslash at the end takes the quote for its own, and the string goes on through the gap.
      obtain ⟨u, found, rfl⟩ := map_modifyHead_eq_some h
      rw [(strings_verbatim gap rest).1 verbatim] at found
      obtain ⟨ss, -, found⟩ := Option.map_eq_some_iff.mp found
      obtain rfl := (List.cons.inj found).1
      exact .inr (.inr ⟨List.suffix_cons '"' gap, List.suffix_refl _⟩)
  | cons c s ih =>
    constructor
    · intro t more h
      rw [List.cons_append, strings] at h
      by_cases quote : c = '"'
      · rw [if_pos quote] at h
        obtain ⟨ss, -, found⟩ := Option.map_eq_some_iff.mp h
        obtain rfl := (List.cons.inj found).1
        exact .inr (.inl (Nat.succ_pos _))
      rw [if_neg quote] at h
      by_cases slash : c = '\\'
      · subst slash
        exact ih.2 t more h
      rw [if_neg slash] at h
      obtain ⟨u, found, rfl⟩ := map_modifyHead_eq_some h
      rcases ih.1 u more found with ⟨plain, rfl⟩ | misread
      · exact .inl ⟨(isVerbatim_cons quote slash).mpr plain, rfl⟩
      · exact .inr (misread.cons c c)
    · intro t more h
      obtain ⟨u, found, rfl⟩ := map_modifyHead_eq_some h
      by_cases special : c = '"' ∨ c = '\\'
      · rw [if_pos special]
        exact .inr (misread_escape ((ih.1 u more found).imp_left And.right) c)
      · rw [if_neg special]
        obtain ⟨quote, slash⟩ := not_or.mp special
        rcases ih.1 u more found with ⟨plain, rfl⟩ | misread
        · exact .inl ⟨isVerbatim_slash_cons.mpr ⟨quote, slash, plain⟩, rfl⟩
        · exact .inr ((misread.cons c c).cons '\\' '\\')

private theorem quoted_eq_some_iff (text : String) (ss : List String) :
    quoted text = some ss ↔ strings .outside text.toList = some (ss.map String.toList) := by
  constructor
  · intro h
    obtain ⟨found, read, rfl⟩ := Option.map_eq_some_iff.mp h
    rw [read, List.map_map]
    simp [Function.comp_def]
  · intro h
    rw [quoted, h, Option.map_some, List.map_map]
    simp [Function.comp_def]

private theorem strings_string (outside : '"' ∉ gap) (verbatim : IsVerbatim s) (rest : List Char) :
    strings .outside (gap ++ '"' :: (s ++ '"' :: rest)) = (strings .outside rest).map (s :: ·) := by
  rw [strings_gap outside, ← (strings_verbatim s rest).1 verbatim]
  rfl

private theorem strings_label (outside : '"' ∉ gap) (label : String) (rest : List Char) :
    strings .outside (gap ++ '"' :: ((Network.escapeQuotes label).toList ++ '"' :: rest)) =
      (strings .outside rest).map (label.toList :: ·) := by
  rw [strings_gap outside, ← strings_escapeQuotes label rest]
  rfl

end Dot

namespace Network

open Dot

variable (a : Activity) (e : Element) (es : List Element) (rest : List Char)

def dotNodeStrings : List String := [e.id, e.label, (a.shade e).color]

def dotEdgeStrings (c : Connection) : List String :=
  [c.source.element, c.target.element, c.source.port ++ "->" ++ c.target.port]

def dotStrings (n : Network) : List String :=
  n.id :: n.elements.flatMap (dotNodeStrings a) ++ n.connections.flatMap dotEdgeStrings

private theorem dotNode_shape : ∃ tail,
    (dotNode a e).toList ++ rest =
      ' ' :: ' ' :: '"' :: (e.id.toList ++ '"' :: (" [label=".toList ++ '"' :: tail)) ∧
    strings .inside tail = (strings .outside rest).map
      ([e.label.toList, (a.shade e).color.toList] ++ ·) := by
  refine ⟨(escapeQuotes e.label).toList ++ '"' :: (", fillcolor=".toList ++
    '"' :: ((a.shade e).color.toList ++ '"' :: (']' :: ';' :: rest))), ?_, ?_⟩
  · simp [dotNode, String.toList_append]
  · have color : IsVerbatim (a.shade e).color.toList := by cases a.shade e <;> decide
    rw [strings_escapeQuotes, strings_string (by decide) color, Option.map_map]
    rfl

variable {a e es rest}

/-- The line of an element is read as it is to be exactly if its id stands for itself. -/
private theorem strings_dotNode_iff {more : List (List Char)} :
    strings .outside ((dotNode a e).toList ++ rest) =
        some ((dotNodeStrings a e).map String.toList ++ more) ↔
      IsVerbatim e.id.toList ∧ strings .outside rest = some more := by
  obtain ⟨tail, shape, attributes⟩ := dotNode_shape a e rest
  have gap : IsVerbatim " [label=".toList := by decide
  have line : strings .outside ((dotNode a e).toList ++ rest) =
      strings .inside (e.id.toList ++ '"' :: (" [label=".toList ++ '"' :: tail)) := by
    rw [shape]
    rfl
  rw [line]
  constructor
  · intro h
    have verbatim : IsVerbatim e.id.toList := by
      rcases (verbatim_or_misread gap _ _).1 _ _ h with ⟨verbatim, -⟩ | misread
      · exact verbatim
      · exact absurd rfl (misread.ne (by decide) gap)
    refine ⟨verbatim, ?_⟩
    rw [(strings_verbatim _ _).1 verbatim, strings_gap (by decide), strings, if_pos rfl, attributes,
      Option.map_map] at h
    obtain ⟨found, read, same⟩ := Option.map_eq_some_iff.mp h
    have appended : (dotNodeStrings a e).map String.toList ++ found =
        (dotNodeStrings a e).map String.toList ++ more := same
    rw [read, List.append_cancel_left appended]
  · rintro ⟨verbatim, read⟩
    rw [(strings_verbatim _ _).1 verbatim, strings_gap (by decide), strings, if_pos rfl, attributes,
      read]
    rfl

private theorem strings_dotNodes_iff {more : List (List Char)} :
    strings .outside ((es.map (dotNode a)).flatMap (fun l => '\n' :: l.toList) ++ rest) =
        some ((es.flatMap (dotNodeStrings a)).map String.toList ++ more) ↔
      (∀ e ∈ es, IsVerbatim e.id.toList) ∧ strings .outside rest = some more := by
  induction es with
  | nil => simp
  | cons e es ih =>
    rw [List.forall_mem_cons, and_assoc, ← ih, List.map_cons, List.flatMap_cons, List.flatMap_cons,
      List.map_append, List.append_assoc, List.append_assoc, List.cons_append, strings,
      if_neg (by decide)]
    exact strings_dotNode_iff

private theorem strings_dotEdge {c : Connection} (source : IsVerbatim c.source.element.toList)
    (target : IsVerbatim c.target.element.toList)
    (ports : IsVerbatim (c.source.port ++ "->" ++ c.target.port).toList) :
    strings .outside ((dotEdge c).toList ++ rest) =
      (strings .outside rest).map ((dotEdgeStrings c).map String.toList ++ ·) := by
  have shape : (dotEdge c).toList ++ rest =
      "  ".toList ++ '"' :: (c.source.element.toList ++ '"' :: (" -> ".toList ++
        '"' :: (c.target.element.toList ++ '"' :: (" [label=".toList ++
        '"' :: ((c.source.port ++ "->" ++ c.target.port).toList ++ '"' :: (']' :: ';' :: rest)))))) := by
    simp [dotEdge, String.toList_append]
  rw [shape, strings_string (by decide) source, strings_string (by decide) target,
    strings_string (by decide) ports, Option.map_map, Option.map_map]
  rfl

private theorem strings_dotEdges {cs : List Connection}
    (ends : ∀ c ∈ cs, IsVerbatim c.source.element.toList ∧ IsVerbatim c.target.element.toList ∧
      IsVerbatim (c.source.port ++ "->" ++ c.target.port).toList) :
    strings .outside ((cs.map dotEdge).flatMap (fun l => '\n' :: l.toList) ++ rest) =
      (strings .outside rest).map ((cs.flatMap dotEdgeStrings).map String.toList ++ ·) := by
  induction cs with
  | nil => simp
  | cons c cs ih =>
    obtain ⟨source, target, ports⟩ := ends c List.mem_cons_self
    rw [List.map_cons, List.flatMap_cons, List.append_assoc, List.cons_append, strings,
      if_neg (by decide), strings_dotEdge source target ports,
      ih fun d hd => ends d (List.mem_cons_of_mem c hd), Option.map_map, List.flatMap_cons]
    simp [Function.comp_def]

private theorem Coherent.isVerbatim_ports {n : Network} (h : n.Coherent) {w : Connection}
    (drawn : w ∈ n.connections) : IsVerbatim (w.source.port ++ "->" ++ w.target.port).toList := by
  have plain : ∀ c, Kind.isNameChar c = true → c ≠ '"' ∧ c ≠ '\\' := by
    intro c name
    constructor <;> rintro rfl <;> exact absurd name (by decide)
  refine isVerbatim_of_plain fun c hc => ?_
  rw [String.toList_append, String.toList_append, List.mem_append, List.mem_append] at hc
  rcases hc with (source | arrow) | target
  · exact plain c (h.isNameChar_source drawn c source)
  · obtain rfl | rfl : c = '-' ∨ c = '>' := by simpa using arrow
    all_goals decide
  · exact plain c (h.isNameChar_target drawn c target)

/-- Ends of wires are elements, so they stand for themselves if the ids of elements do. -/
private theorem Coherent.isVerbatim_ends {n : Network} (h : n.Coherent)
    (verbatim : ∀ e ∈ n.elements, IsVerbatim e.id.toList) {w : Connection} (drawn : w ∈ n.connections) :
    IsVerbatim w.source.element.toList ∧ IsVerbatim w.target.element.toList := by
  obtain ⟨d, hd, source, -⟩ := h.source w drawn
  obtain ⟨e, he, target, -⟩ := h.target w drawn
  exact ⟨source ▸ verbatim d hd, target ▸ verbatim e he⟩

/-- The strings of a drawing in DOT are the id of the network, the id, the label and the colour of each
element, and the ends and the ports of each wire, exactly if the id of each element stands for itself. -/
theorem quoted_drawing_iff {n : Network} (valid : n.Valid) (a : Activity) :
    quoted (n.drawing a .dot) = some (n.dotStrings a) ↔
      ∀ e ∈ n.elements, IsVerbatim e.id.toList := by
  let wires := (n.connections.map dotEdge).flatMap (fun l => '\n' :: l.toList) ++ ['\n', '\x7d']
  have text : (n.drawing a .dot).toList =
      "digraph LD \x7b\n  rankdir=LR;\n  node [shape=box, style=filled];\n  label=".toList ++
        '"' :: ((escapeQuotes n.id).toList ++ '"' :: (";\n".toList ++
          ((n.elements.map (dotNode a)).flatMap (fun l => '\n' :: l.toList) ++ '\n' :: wires))) := by
    rw [drawing, Text.toList_intercalate_feed]
    simp [dotLines, wires, String.toList_append]
  have title (found : Option (List (List Char))) (more : List (List Char)) :
      found.map (n.id.toList :: ·) = some (n.id.toList :: more) ↔ found = some more := by
    cases found <;> simp
  rw [quoted_eq_some_iff, text, strings_label (by decide), strings_gap (by decide), dotStrings,
    List.cons_append, List.map_cons, title, List.map_append, strings_dotNodes_iff]
  refine and_iff_left_of_imp fun verbatim => ?_
  have ends : ∀ c ∈ n.connections, IsVerbatim c.source.element.toList ∧
      IsVerbatim c.target.element.toList ∧
      IsVerbatim (c.source.port ++ "->" ++ c.target.port).toList := by
    intro c drawn
    obtain ⟨source, target⟩ := valid.coherent.isVerbatim_ends verbatim drawn
    exact ⟨source, target, valid.coherent.isVerbatim_ports drawn⟩
  rw [strings, if_neg (by decide), strings_dotEdges ends]
  simp [strings]

/-- A bell and a lamp with quotes in their labels, the bell with a backslash in its id. -/
def quotedBell : Network where
  id := "a \"bell\" \\ and a lamp"
  elements :=
    [{ id := "bell\\one", kind := .contact, properties := [("variable", .text "the \"bell\"")] },
      { id := "lamp", kind := .coil, properties := [("variable", .text "C:\\lamp")] }]
  connections := [⟨⟨"bell\\one", "out"⟩, ⟨"lamp", "in"⟩⟩]

private theorem valid_quotedBell : quotedBell.Valid := by decide

/-- Quotes and backslashes in labels are read as they are, and so is a backslash alone in an id. -/
theorem quoted_quotedBell :
    quotedBell.Valid ∧ (∀ e ∈ quotedBell.elements, IsVerbatim e.id.toList) ∧
      quoted (quotedBell.drawing [("lamp", true)] .dot) =
        some (quotedBell.dotStrings [("lamp", true)]) := by
  have verbatim : ∀ e ∈ quotedBell.elements, IsVerbatim e.id.toList := by decide
  exact ⟨valid_quotedBell, verbatim,
    (quoted_drawing_iff valid_quotedBell [("lamp", true)]).mpr verbatim⟩

/-- One contact, with an id that ends its string and the statement, and begins another. -/
def injectedLamp : Network where
  id := "hall"
  elements := [{ id := "bell\"]; \"lamp", kind := .contact }]
  connections := []

private theorem valid_injectedLamp : injectedLamp.Valid := by decide

/-- The drawing of one element has the strings of two. -/
theorem quoted_injectedLamp :
    injectedLamp.Valid ∧
      injectedLamp.dotStrings [] = ["hall", "bell\"]; \"lamp", "contact", "lightblue"] ∧
      quoted (injectedLamp.drawing [] .dot) = some ["hall", "bell", "lamp", "contact", "lightblue"] :=
  ⟨valid_injectedLamp, by decide, by decide +kernel⟩

end Network

end RungLogic
