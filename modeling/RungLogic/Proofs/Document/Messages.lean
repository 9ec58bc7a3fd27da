import Mathlib.Data.List.Basic
import RungLogic.Document.Entries

/-!
Messages about the entries of a document. A message about an entry begins with the place of the entry,
and with no other place; messages about anything else begin with no place at all. So the messages about
an entry can be told from all others, and they are its own faults, whatever the other entries hold.
-/

set_option autoImplicit false
set_option relaxedAutoImplicit false

namespace RungLogic

/-- Whether no text begins with both texts. -/
def Text.differ (a b : String) : Bool :=
  !a.toList.isPrefixOf b.toList && !b.toList.isPrefixOf a.toList

namespace Place

def opening : Place → String
  | .instruction _ => "instructions["
  | .element _ => "elements["
  | .connection _ => "connections["

def index : Place → Nat
  | .instruction index | .element index | .connection index => index

def heads (p : Place) (message : String) : Bool := p.shown.toList.isPrefixOf message.toList

private theorem shown_eq (p : Place) : p.shown = p.opening ++ (toString p.index ++ "]") := by
  cases p <;> simp only [shown, opening, index, String.append_assoc]

private theorem eq_iff {p q : Place} : p = q ↔ p.opening = q.opening ∧ p.index = q.index := by
  cases p <;> cases q <;> simp [opening, index]

private theorem heads_eq_false {p : Place} {begin : String} (differ : Text.differ p.opening begin = true)
    (rest : String) : p.heads (begin ++ rest) = false := by
  rw [heads, shown_eq, String.toList_append, @String.toList_append begin, Bool.eq_false_iff, Ne,
    List.isPrefixOf_iff_prefix]
  intro within
  simp only [Text.differ, Bool.and_eq_true, Bool.not_eq_true', Bool.eq_false_iff, Ne,
    List.isPrefixOf_iff_prefix] at differ
  rcases List.prefix_or_prefix_of_prefix ((List.prefix_append _ _).trans within)
    (List.prefix_append begin.toList rest.toList) with shorter | longer
  · exact differ.1 shorter
  · exact differ.2 longer

/-- Whether a text begins as no place does. -/
def elsewhere (begin : String) : Bool :=
  ["instructions[", "elements[", "connections["].all fun opening => Text.differ opening begin

theorem heads_elsewhere {begin : String} (h : elsewhere begin = true) (p : Place) (rest : String) :
    p.heads (begin ++ rest) = false := by
  have differ := List.all_eq_true.mp h
  apply heads_eq_false
  cases p
  · exact differ "instructions[" (by decide)
  · exact differ "elements[" (by decide)
  · exact differ "connections[" (by decide)

private theorem eq_of_closed {a b : Nat} {rest : List Char}
    (h : (toString a).toList ++ [']'] <+: (toString b).toList ++ (']' :: rest)) : a = b := by
  have digits (k : Nat) : ∀ c ∈ (toString k).toList, (c != ']') = true := by
    intro c hc
    rw [Nat.toString_eq_repr, Nat.toList_repr] at hc
    have digit := Nat.isDigit_of_mem_toDigits (by decide) (by decide) hc
    rw [bne_iff_ne]
    rintro rfl
    cases digit
  obtain ⟨more, same⟩ := h
  have numerals := congrArg (List.takeWhile (· != ']')) same
  rw [List.append_assoc, List.takeWhile_append_of_pos (digits a),
    List.takeWhile_append_of_pos (digits b)] at numerals
  have values : Nat.toDigits 10 a = Nat.toDigits 10 b := by
    simpa [Nat.toString_eq_repr] using numerals
  have back := congrArg (fun l => Nat.ofDigitChars 10 l 0) values
  simpa [Nat.ofDigitChars_ten_toDigits] using back

private theorem heads_shown (p q : Place) (rest : String) : p.heads (q.shown ++ rest) = decide (p = q) := by
  have same (word : String) (a b : Nat) :
      (word ++ (toString a ++ "]")).toList.isPrefixOf
        ((word ++ (toString b ++ "]")) ++ rest).toList = decide (a = b) := by
    rw [Bool.eq_iff_iff, List.isPrefixOf_iff_prefix, decide_eq_true_eq]
    simp only [String.toList_append, List.append_assoc]
    rw [List.prefix_append_right_inj]
    constructor
    · exact eq_of_closed
    · rintro rfl
      exact ⟨rest.toList, by simp⟩
  by_cases lists : p.opening = q.opening
  · rw [heads, shown_eq, shown_eq, lists, same]
    exact decide_eq_decide.mpr (by simp only [eq_iff, lists, true_and])
  · rw [decide_eq_false fun equal => lists (congrArg opening equal), shown_eq q,
      String.append_assoc]
    apply heads_eq_false
    cases p <;> cases q <;> first | exact (lists rfl).elim | (dsimp only [opening]; decide)

end Place

namespace Document

variable {α : Type}

/-- What is wrong with an entry by itself, nothing if it is read. -/
def faultsOf (read : Value → Except (List EntryFault) α) (v : Value) : List EntryFault :=
  match read v with
  | .ok _ => []
  | .error own => own

/-- The messages about what is wrong with an entry at a place. -/
def messagesAt (read : Value → Except (List EntryFault) α) (place : Place) (v : Value) : List String :=
  (faultsOf read v).map fun f => place.shown ++ f.message

/-- The messages about the entries of a list, in their order. -/
def messages (read : Value → Except (List EntryFault) α) (place : Nat → Place)
    (entries : List Value) : List String :=
  entries.zipIdx.flatMap fun entry => messagesAt read (place entry.2) entry.1

theorem messages_readEntries (read : Value → Except (List EntryFault) α) (place : Nat → Place)
    (entries : List Value) :
    (readEntries place read entries).1.map DocumentFault.message = messages read place entries := by
  have from' (index : Nat) : (readFrom place read index entries).1.map DocumentFault.message =
      (entries.zipIdx index).flatMap fun entry => messagesAt read (place entry.2) entry.1 := by
    induction entries generalizing index with
    | nil => rfl
    | cons v rest ih =>
      rw [List.zipIdx_cons, List.flatMap_cons, ← ih (index + 1), readFrom, messagesAt, faultsOf]
      rcases read v with own | a
      · simp only [List.map_append, List.map_map]
        rfl
      · rfl
  exact from' 0

private theorem filter_messagesAt (read : Value → Except (List EntryFault) α) (p q : Place) (v : Value) :
    (messagesAt read q v).filter p.heads = if p = q then messagesAt read q v else [] := by
  have each : ∀ m ∈ messagesAt read q v, p.heads m = decide (p = q) := by
    intro m hm
    obtain ⟨f, -, rfl⟩ := List.mem_map.mp hm
    exact p.heads_shown q f.message
  by_cases same : p = q
  · rw [if_pos same]
    exact List.filter_eq_self.mpr fun m hm => (each m hm).trans (decide_eq_true same)
  · rw [if_neg same]
    refine List.filter_eq_nil_iff.mpr fun m hm => ?_
    rw [each m hm, decide_eq_false same]
    exact Bool.false_ne_true

theorem messagesAt_eq_nil_iff {read : Value → Except (List EntryFault) α}
    (nonempty : ∀ v, read v ≠ .error []) (place : Place) (v : Value) :
    messagesAt read place v = [] ↔ ¬ ∃ own, read v = .error own := by
  rw [messagesAt, List.map_eq_nil_iff, faultsOf]
  rcases hv : read v with own | a
  · refine iff_of_false (fun none => nonempty v ?_) fun refused => refused ⟨own, rfl⟩
    rw [hv]
    exact congrArg Except.error none
  · refine iff_of_true rfl ?_
    rintro ⟨own, refused⟩
    cases refused

theorem messages_eq_nil_iff {read : Value → Except (List EntryFault) α}
    (nonempty : ∀ v, read v ≠ .error []) (place : Nat → Place) (entries : List Value) :
    messages read place entries = [] ↔ ∀ v ∈ entries, ¬ ∃ own, read v = .error own := by
  simp only [messages, List.flatMap_eq_nil_iff, messagesAt_eq_nil_iff nonempty]
  constructor
  · intro none v hv
    obtain ⟨i, hi⟩ := List.mem_iff_getElem?.mp hv
    exact none (v, i) (List.mk_mem_zipIdx_iff_getElem?.mpr hi)
  · intro none entry hentry
    exact none entry.1 (List.fst_mem_of_mem_zipIdx hentry)

private theorem flatMap_at {β γ : Type} (g : β → List γ) {entries : List β} {i : Nat} {v : β}
    (hv : entries[i]? = some v) (index : Nat) :
    (entries.zipIdx index).flatMap (fun entry => if index + i = entry.2 then g entry.1 else []) =
      g v := by
  induction entries generalizing i index with
  | nil => cases hv
  | cons w rest ih =>
    rw [List.zipIdx_cons, List.flatMap_cons]
    cases i with
    | zero =>
      obtain rfl : w = v := Option.some.inj hv
      have later : (rest.zipIdx (index + 1)).flatMap
          (fun entry => if index + 0 = entry.2 then g entry.1 else []) = [] := by
        refine List.flatMap_eq_nil_iff.mpr fun entry hentry => if_neg ?_
        have bound := (List.mem_zipIdx hentry).1
        omega
      rw [later, if_pos (Nat.add_zero index), List.append_nil]
    | succ i =>
      have first : index + (i + 1) ≠ index := by omega
      rw [if_neg first, List.nil_append, ← Nat.add_assoc, Nat.add_right_comm]
      exact ih hv (index + 1)

/-- Of the messages about the entries of a list, those that begin with the place of an entry are its
own. -/
theorem filter_messages (read : Value → Except (List EntryFault) α) {place : Nat → Place}
    (apart : ∀ i j, place i = place j ↔ i = j) {entries : List Value} {i : Nat} {v : Value}
    (hv : entries[i]? = some v) :
    (messages read place entries).filter (place i).heads = messagesAt read (place i) v := by
  rw [messages, List.filter_flatMap, ← flatMap_at (messagesAt read (place i)) hv 0]
  refine List.flatMap_congr fun entry _ => ?_
  rw [filter_messagesAt, Nat.zero_add]
  by_cases same : i = entry.2
  · rw [if_pos ((apart i entry.2).mpr same), if_pos same, same]
  · rw [if_neg fun equal => same ((apart i entry.2).mp equal), if_neg same]

theorem filter_messages_of_none (read : Value → Except (List EntryFault) α) {place : Nat → Place}
    (apart : ∀ i j, place i = place j ↔ i = j) {entries : List Value} {i : Nat}
    (none : entries[i]? = none) : (messages read place entries).filter (place i).heads = [] := by
  rw [messages, List.filter_flatMap]
  refine List.flatMap_eq_nil_iff.mpr fun entry hentry => ?_
  rw [filter_messagesAt, if_neg]
  intro same
  obtain rfl := (apart i entry.2).mp same
  rw [List.mem_zipIdx_iff_getElem?.mp hentry] at none
  cases none

theorem filter_messages_eq_nil (read : Value → Except (List EntryFault) α) {place : Nat → Place}
    {p : Place} (other : ∀ i, p ≠ place i) (entries : List Value) :
    (messages read place entries).filter p.heads = [] := by
  rw [messages, List.filter_flatMap]
  refine List.flatMap_eq_nil_iff.mpr fun entry _ => ?_
  rw [filter_messagesAt, if_neg (other entry.2)]

end Document

end RungLogic
