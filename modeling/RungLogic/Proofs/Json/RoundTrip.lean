import RungLogic.Proofs.Json.Numbers
import RungLogic.Proofs.Json.Strings
import RungLogic.Proofs.Tables

/-!
Values and their JSON texts. A value without reals, whose records have distinct names, is read back
from its text, and its text is read whole whatever follows it in a list or a record. The reader
takes at most one step for each character, so the bound on its steps is never met.
-/

set_option autoImplicit false
set_option relaxedAutoImplicit false

namespace RungLogic.Json

mutual

/-- Values that a JSON text keeps as they are: numbers are integers, and the names of a record are
distinct. -/
def Exact : Value → Prop
  | .num (.real _) => False
  | .list items => ExactItems items
  | .record entries => (Table.names entries).Nodup ∧ ExactEntries entries
  | _ => True

def ExactItems : List Value → Prop
  | [] => True
  | v :: rest => Exact v ∧ ExactItems rest

def ExactEntries : List (String × Value) → Prop
  | [] => True
  | (_, v) :: rest => Exact v ∧ ExactEntries rest

end

mutual

/-- How many steps it takes to read a value. -/
def weight : Value → Nat
  | .list items => 1 + weightItems items
  | .record entries => 1 + weightEntries entries
  | _ => 1

def weightItems : List Value → Nat
  | [] => 0
  | v :: rest => 1 + weight v + weightItems rest

def weightEntries : List (String × Value) → Nat
  | [] => 0
  | (_, v) :: rest => 1 + weight v + weightEntries rest

end

/-- A line feed and the blanks after it. -/
def gap (level : Nat) : List Char := '\n' :: List.replicate (2 * level) ' '

private theorem toList_newLine (level : Nat) : (newLine level).toList = gap level := by
  simp [newLine, gap, String.toList_append]

private theorem skip_gap (level : Nat) {c : Char} (h : isSpace c = false) (cs : List Char) :
    skip (gap level ++ c :: cs) = c :: cs := by
  have blanks : ∀ b ∈ gap level, isSpace b = true := by
    intro b hb
    rcases List.mem_cons.mp hb with rfl | hb
    · rfl
    · rw [List.eq_of_mem_replicate hb]
      rfl
  rw [skip, List.dropWhile_append_of_pos blanks, List.dropWhile_cons_of_neg (by simp [h])]

private theorem skip_cons {c : Char} (h : isSpace c = false) (cs : List Char) :
    skip (c :: cs) = c :: cs := by
  rw [skip, List.dropWhile_cons_of_neg (by simp [h])]

private theorem toList_block_nil (level : Nat) (opening closing : String) :
    (block level opening closing []).toList = opening.toList ++ closing.toList := by
  simp [block, String.toList_append]

private theorem toList_block_cons (level : Nat) (opening closing part : String) (parts : List String) :
    (block level opening closing (part :: parts)).toList =
      opening.toList ++ (gap (level + 1) ++ ((',' :: gap (level + 1)).intercalate
        ((part :: parts).map String.toList) ++ (gap level ++ closing.toList))) := by
  have sep : ("," ++ newLine (level + 1)).toList = ',' :: gap (level + 1) := by
    rw [String.toList_append, toList_newLine]
    rfl
  simp [block, String.toList_append, toList_newLine, sep, List.append_assoc]

private theorem toList_writeString (s : String) :
    (writeString s).toList = '"' :: (s.toList.flatMap escapeChar ++ ['"']) := by
  simp [writeString]

private theorem exists_block (level : Nat) (opening closing : String) (parts : List String)
    {c : Char} (h : opening.toList = [c]) :
    ∃ cs, (block level opening closing parts).toList = c :: cs := by
  cases parts with
  | nil => exact ⟨_, by rw [toList_block_nil, h]; rfl⟩
  | cons part parts => exact ⟨_, by rw [toList_block_cons, h]; rfl⟩

private theorem head_writeAt (level : Nat) {v : Value} (h : Exact v) :
    ∃ c cs, (writeAt level v).toList = c :: cs ∧ isSpace c = false ∧ c ≠ ']' ∧ c ≠ '\ufeff' := by
  cases v with
  | null => exact ⟨'n', ['u', 'l', 'l'], by simp [writeAt], rfl, by decide, by decide⟩
  | bool b =>
    cases b
    · exact ⟨'f', ['a', 'l', 's', 'e'], by simp [writeAt], rfl, by decide, by decide⟩
    · exact ⟨'t', ['r', 'u', 'e'], by simp [writeAt], rfl, by decide, by decide⟩
  | num n =>
    cases n with
    | int i =>
      have text : (writeAt level (.num (.int i))).toList = (toString i).toList := by
        simp [writeAt, writeNumber]
      rw [text, toList_toString_int]
      by_cases negative : i < 0
      · exact ⟨'-', _, by rw [if_pos negative]; rfl, rfl, by decide, by decide⟩
      · obtain ⟨c, cs, hcs⟩ :=
          List.exists_cons_of_ne_nil (Nat.toDigits_ne_nil (n := i.natAbs) (b := 10))
        have hc : c.isDigit = true := isDigit_of_mem_toDigits c (by rw [hcs]; exact List.mem_cons_self)
        refine ⟨c, cs, by rw [if_neg negative, hcs]; rfl, ?_, ?_, ?_⟩
        · rw [Bool.eq_false_iff]
          intro space
          simp only [isSpace, Bool.or_eq_true, decide_eq_true_eq] at space
          rcases space with ((rfl | rfl) | rfl) | rfl <;> cases hc
        · rintro rfl
          cases hc
        · rintro rfl
          cases hc
    | real x => exact absurd h (by simp [Exact])
  | text s => exact ⟨'"', _, by rw [writeAt, toList_writeString], rfl, by decide, by decide⟩
  | list items =>
    obtain ⟨cs, hcs⟩ := exists_block level "[" "]" (writeItems (level + 1) items) rfl
    exact ⟨'[', cs, by rw [writeAt]; exact hcs, rfl, by decide, by decide⟩
  | record entries =>
    obtain ⟨cs, hcs⟩ := exists_block level "\x7b" "\x7d" (writeEntries (level + 1) entries) rfl
    exact ⟨'\x7b', cs, by rw [writeAt]; exact hcs, rfl, by decide, by decide⟩

/-- The entries of a list between brackets, each on a line of its own. -/
private def body (level : Nat) (parts : List String) : List Char :=
  (',' :: gap level).intercalate (parts.map String.toList)

private theorem body_singleton (level : Nat) (part : String) :
    body level [part] = part.toList := by
  simp [body]

private theorem body_cons_cons (level : Nat) (part other : String) (parts : List String) :
    body level (part :: other :: parts) =
      part.toList ++ ',' :: (gap level ++ body level (other :: parts)) := by
  simp [body, List.intercalate_cons_cons]

private theorem endsNumber_cons {c : Char} (h : c.isDigit = false ∧ c ≠ '.' ∧ c ≠ 'e' ∧ c ≠ 'E')
    (cs : List Char) : EndsNumber (c :: cs) := by
  intro d hd
  rw [← Option.some.inj hd]
  exact h

private theorem value_scalar {c : Char} {cs : List Char} {r : Value × List Char} (n : Nat)
    (read : scalar? (c :: cs) = some r) (marks : c ≠ '"' ∧ c ≠ '\x7b' ∧ c ≠ '[') :
    value (n + 1) (c :: cs) = .ok r := by
  rw [value.eq_def]
  split <;> simp_all

private theorem value_list {c : Char} {n : Nat} {inside cs after : List Char} {vs : List Value}
    (skipped : skip inside = c :: cs) (hc : c ≠ ']') (read : items n (c :: cs) = .ok (vs, after)) :
    value (n + 1) ('[' :: inside) = .ok (.list vs, after) := by
  simp only [value, skipped]
  split
  · rename_i same
    exact absurd (List.cons.inj same).1 hc
  · rw [read]

private theorem value_record {c : Char} {n : Nat} {inside cs after : List Char}
    {es : List (String × Value)} (skipped : skip inside = c :: cs) (hc : c ≠ '\x7d')
    (read : entries n (c :: cs) = .ok (es, after)) :
    value (n + 1) ('\x7b' :: inside) = .ok (.record (Table.ofPairs es), after) := by
  simp only [value, skipped]
  split
  · rename_i same
    exact absurd (List.cons.inj same).1 hc
  · rw [read]

private theorem items_last {n : Nat} {cs rest after : List Char} {v : Value}
    (read : value n cs = .ok (v, rest)) (close : skip rest = ']' :: after) :
    items (n + 1) cs = .ok ([v], after) := by
  simp [items, read, close]

private theorem items_next {n : Nat} {cs rest more after : List Char} {v : Value} {vs : List Value}
    (read : value n cs = .ok (v, rest)) (comma : skip rest = ',' :: more)
    (others : items n (skip more) = .ok (vs, after)) :
    items (n + 1) cs = .ok (v :: vs, after) := by
  simp [items, read, comma, others]

private theorem entries_last {n : Nat} {k : String} {cs rest after : List Char} {v : Value}
    (read : value n (skip cs) = .ok (v, rest)) (close : skip rest = '\x7d' :: after) :
    entries (n + 1) ('"' :: (k.toList.flatMap escapeChar ++ '"' :: ':' :: cs)) =
      .ok ([(k, v)], after) := by
  simp [entries, stringBody_flatMap, skip_cons (c := ':') rfl, read, close]

private theorem entries_next {n : Nat} {k : String} {cs rest more after : List Char} {v : Value}
    {es : List (String × Value)} (read : value n (skip cs) = .ok (v, rest))
    (comma : skip rest = ',' :: more) (others : entries n (skip more) = .ok (es, after)) :
    entries (n + 1) ('"' :: (k.toList.flatMap escapeChar ++ '"' :: ':' :: cs)) =
      .ok ((k, v) :: es, after) := by
  simp [entries, stringBody_flatMap, skip_cons (c := ':') rfl, read, comma, others]

private theorem isDigit_not_mark {c : Char} (h : c.isDigit = true) :
    c ≠ '"' ∧ c ≠ '\x7b' ∧ c ≠ '[' := by
  refine ⟨?_, ?_, ?_⟩
  all_goals
    rintro rfl
    cases h

private theorem value_int (i : Int) (level n : Nat) {rest : List Char} (ends : EndsNumber rest) :
    value (n + 1) ((writeAt level (.num (.int i))).toList ++ rest) = .ok (.num (.int i), rest) := by
  have text : (writeAt level (.num (.int i))).toList = (toString i).toList := by
    simp [writeAt, writeNumber]
  have read := scalar?_int i ends
  rw [text]
  rw [toList_toString_int] at read ⊢
  by_cases negative : i < 0
  · rw [if_pos negative] at read ⊢
    exact value_scalar n read ⟨by decide, by decide, by decide⟩
  · rw [if_neg negative] at read ⊢
    obtain ⟨c, cs, hcs⟩ :=
      List.exists_cons_of_ne_nil (Nat.toDigits_ne_nil (n := i.natAbs) (b := 10))
    have hc : c.isDigit = true := isDigit_of_mem_toDigits c (by rw [hcs]; exact List.mem_cons_self)
    rw [hcs] at read ⊢
    exact value_scalar n read (isDigit_not_mark hc)

private theorem endsNumber_gap (level : Nat) (cs : List Char) : EndsNumber (gap level ++ cs) :=
  endsNumber_cons (by decide) _

private theorem toList_entry (level : Nat) (k : String) (v : Value) :
    (writeString k ++ ": " ++ writeAt level v).toList =
      '"' :: (k.toList.flatMap escapeChar ++ '"' :: ':' :: ' ' :: (writeAt level v).toList) := by
  simp [String.toList_append, toList_writeString]

private theorem skip_text (level : Nat) {v : Value} (h : Exact v) (rest : List Char) :
    skip (' ' :: ((writeAt level v).toList ++ rest)) = (writeAt level v).toList ++ rest := by
  obtain ⟨c, cs, hcs, space, -⟩ := head_writeAt level h
  rw [hcs, skip, List.dropWhile_cons_of_pos rfl]
  exact skip_cons space _

private theorem skip_gap_items (level : Nat) {v : Value} (h : Exact v) (vs : List Value)
    (rest : List Char) :
    ∃ c cs, body level (writeItems level (v :: vs)) ++ rest = c :: cs ∧ c ≠ ']' ∧
      skip (gap level ++ (body level (writeItems level (v :: vs)) ++ rest)) = c :: cs := by
  obtain ⟨c, cs, hcs, space, hc, -⟩ := head_writeAt level h
  have starts : ∃ more, body level (writeItems level (v :: vs)) = c :: more := by
    cases vs with
    | nil => exact ⟨cs, by rw [writeItems, writeItems, body_singleton, hcs]⟩
    | cons w vs => exact ⟨_, by rw [writeItems, writeItems, body_cons_cons, hcs]; rfl⟩
  obtain ⟨more, hmore⟩ := starts
  refine ⟨c, more ++ rest, by rw [hmore]; rfl, hc, ?_⟩
  rw [hmore]
  exact skip_gap level space _

private theorem skip_gap_entries (level : Nat) (k : String) (v : Value)
    (es : List (String × Value)) (rest : List Char) :
    ∃ cs, body level (writeEntries level ((k, v) :: es)) ++ rest = '"' :: cs ∧
      skip (gap level ++ (body level (writeEntries level ((k, v) :: es)) ++ rest)) = '"' :: cs := by
  have starts : ∃ more, body level (writeEntries level ((k, v) :: es)) = '"' :: more := by
    cases es with
    | nil => exact ⟨_, by rw [writeEntries, writeEntries, body_singleton, toList_entry]⟩
    | cons e es =>
      exact ⟨_, by rw [writeEntries, writeEntries, body_cons_cons, toList_entry]; rfl⟩
  obtain ⟨more, hmore⟩ := starts
  refine ⟨more ++ rest, by rw [hmore]; rfl, ?_⟩
  rw [hmore]
  exact skip_gap level rfl _

private theorem toList_list (level : Nat) (v : Value) (vs : List Value) (rest : List Char) :
    (writeAt level (.list (v :: vs))).toList ++ rest =
      '[' :: (gap (level + 1) ++ (body (level + 1) (writeItems (level + 1) (v :: vs)) ++
        (gap level ++ ']' :: rest))) := by
  rw [writeAt, writeItems, toList_block_cons]
  simp [body]

private theorem toList_record (level : Nat) (k : String) (v : Value) (es : List (String × Value))
    (rest : List Char) :
    (writeAt level (.record ((k, v) :: es))).toList ++ rest =
      '\x7b' :: (gap (level + 1) ++ (body (level + 1) (writeEntries (level + 1) ((k, v) :: es)) ++
        (gap level ++ '\x7d' :: rest))) := by
  rw [writeAt, writeEntries, toList_block_cons]
  simp [body]

mutual

/-- A value is read back from its text, whatever follows that does not go on with a number. -/
private theorem value_writeAt : ∀ (v : Value) (level n : Nat) (rest : List Char), Exact v → weight v ≤ n →
    EndsNumber rest → value n ((writeAt level v).toList ++ rest) = .ok (v, rest)
  | v, level, 0, rest, _, enough, _ => by
    cases v <;> simp [weight] at enough
  | .null, level, n + 1, rest, _, _, _ => by
    simp [writeAt, value, scalar?, dropWord?]
  | .bool true, level, n + 1, rest, _, _, _ => by
    simp [writeAt, value, scalar?, dropWord?]
  | .bool false, level, n + 1, rest, _, _, _ => by
    simp [writeAt, value, scalar?, dropWord?]
  | .num (.int i), level, n + 1, rest, _, _, ends => value_int i level n ends
  | .num (.real x), level, n + 1, rest, exact, _, _ => by
    exact absurd exact (by simp [Exact])
  | .text s, level, n + 1, rest, _, _, _ => by
    rw [writeAt, toList_writeString]
    simp [value, stringBody_flatMap]
  | .list [], level, n + 1, rest, _, _, _ => by
    rw [writeAt, writeItems, toList_block_nil]
    have close : skip (']' :: rest) = ']' :: rest := skip_cons rfl rest
    simp [value, close]
  | .list (v :: vs), level, n + 1, rest, exact, enough, _ => by
    have exact : ExactItems (v :: vs) := exact
    have enough : weightItems (v :: vs) ≤ n := by
      simp only [weight] at enough
      omega
    have read := items_writeItems v vs level n rest exact enough
    obtain ⟨c, cs, same, hc, skipped⟩ :=
      skip_gap_items (level + 1) exact.1 vs (gap level ++ ']' :: rest)
    rw [same] at read
    rw [toList_list]
    exact value_list skipped hc read
  | .record [], level, n + 1, rest, _, _, _ => by
    rw [writeAt, writeEntries, toList_block_nil]
    have close : skip ('\x7d' :: rest) = '\x7d' :: rest := skip_cons rfl rest
    simp [value, close]
  | .record ((k, v) :: es), level, n + 1, rest, exact, enough, _ => by
    have exact : (Table.names ((k, v) :: es)).Nodup ∧ ExactEntries ((k, v) :: es) := exact
    have enough : weightEntries ((k, v) :: es) ≤ n := by
      simp only [weight] at enough
      omega
    have read := entries_writeEntries k v es level n rest exact.2 enough
    obtain ⟨cs, same, skipped⟩ :=
      skip_gap_entries (level + 1) k v es (gap level ++ '\x7d' :: rest)
    rw [same] at read
    rw [toList_record, value_record skipped (by decide) read, Table.ofPairs_eq exact.1]

theorem items_writeItems : ∀ (v : Value) (vs : List Value) (level n : Nat) (rest : List Char),
    ExactItems (v :: vs) → weightItems (v :: vs) ≤ n →
    items n (body (level + 1) (writeItems (level + 1) (v :: vs)) ++ (gap level ++ ']' :: rest)) =
      .ok (v :: vs, rest)
  | v, vs, level, 0, rest, _, enough => by
    simp [weightItems] at enough
  | v, [], level, n + 1, rest, exact, enough => by
    simp only [weightItems] at enough
    have read := value_writeAt v (level + 1) n (gap level ++ ']' :: rest) exact.1 (by omega)
      (endsNumber_gap level _)
    rw [writeItems, writeItems, body_singleton]
    exact items_last read (skip_gap level rfl rest)
  | v, w :: vs, level, n + 1, rest, exact, enough => by
    simp only [weightItems] at enough
    have others := items_writeItems w vs level n rest exact.2 (by simp only [weightItems]; omega)
    obtain ⟨c, cs, same, -, skipped⟩ :=
      skip_gap_items (level + 1) exact.2.1 vs (gap level ++ ']' :: rest)
    have read := value_writeAt v (level + 1) n
      (',' :: (gap (level + 1) ++ (body (level + 1) (writeItems (level + 1) (w :: vs)) ++
        (gap level ++ ']' :: rest)))) exact.1 (by omega) (endsNumber_cons (by decide) _)
    rw [writeItems, writeItems, body_cons_cons, ← writeItems, List.append_assoc, List.cons_append,
      List.append_assoc]
    apply items_next read (skip_cons rfl _)
    rw [skipped, ← same]
    exact others

theorem entries_writeEntries : ∀ (k : String) (v : Value) (es : List (String × Value))
    (level n : Nat) (rest : List Char), ExactEntries ((k, v) :: es) →
    weightEntries ((k, v) :: es) ≤ n →
    entries n (body (level + 1) (writeEntries (level + 1) ((k, v) :: es)) ++
      (gap level ++ '\x7d' :: rest)) = .ok ((k, v) :: es, rest)
  | k, v, es, level, 0, rest, _, enough => by
    simp [weightEntries] at enough
  | k, v, [], level, n + 1, rest, exact, enough => by
    simp only [weightEntries] at enough
    have read := value_writeAt v (level + 1) n (gap level ++ '\x7d' :: rest) exact.1 (by omega)
      (endsNumber_gap level _)
    rw [← skip_text (level + 1) exact.1] at read
    rw [writeEntries, writeEntries, body_singleton, toList_entry]
    simpa using entries_last read (skip_gap level rfl rest)
  | k, v, (l, w) :: es, level, n + 1, rest, exact, enough => by
    simp only [weightEntries] at enough
    have others := entries_writeEntries l w es level n rest exact.2
      (by simp only [weightEntries]; omega)
    obtain ⟨cs, same, skipped⟩ :=
      skip_gap_entries (level + 1) l w es (gap level ++ '\x7d' :: rest)
    have read := value_writeAt v (level + 1) n
      (',' :: (gap (level + 1) ++ (body (level + 1) (writeEntries (level + 1) ((l, w) :: es)) ++
        (gap level ++ '\x7d' :: rest)))) exact.1 (by omega) (endsNumber_cons (by decide) _)
    rw [← skip_text (level + 1) exact.1] at read
    rw [same, ← skipped] at others
    rw [writeEntries, writeEntries, body_cons_cons, ← writeEntries, toList_entry]
    simpa using entries_next read (skip_cons rfl _) others

end

private theorem length_body_cons (level : Nat) (part : String) (parts : List String) :
    part.toList.length ≤ (body level (part :: parts)).length ∧
      (parts ≠ [] → part.toList.length + 1 + (body level parts).length ≤
        (body level (part :: parts)).length) := by
  cases parts with
  | nil => simp [body_singleton]
  | cons other parts =>
    rw [body_cons_cons]
    simp only [List.length_append, List.length_cons]
    constructor
    · omega
    · intro _
      omega

mutual

private theorem weight_le : ∀ (v : Value) (level : Nat), Exact v →
    weight v ≤ (writeAt level v).toList.length
  | .null, level, _ => by simp [weight, writeAt]
  | .bool true, level, _ => by simp [weight, writeAt]
  | .bool false, level, _ => by simp [weight, writeAt]
  | .num (.int i), level, exact => by
    obtain ⟨c, cs, hcs, -⟩ := head_writeAt level exact
    rw [hcs]
    simp [weight]
  | .num (.real x), level, exact => by
    exact absurd exact (by simp [Exact])
  | .text s, level, _ => by
    rw [writeAt, toList_writeString]
    simp [weight]
  | .list [], level, _ => by
    rw [writeAt, writeItems, toList_block_nil]
    simp [weight, weightItems]
  | .list (v :: vs), level, exact => by
    have items := weightItems_le (v :: vs) (level + 1) exact
    have text := toList_list level v vs []
    rw [List.append_nil] at text
    rw [text]
    simp only [weight, List.length_cons, List.length_append]
    omega
  | .record [], level, _ => by
    rw [writeAt, writeEntries, toList_block_nil]
    simp [weight, weightEntries]
  | .record ((k, v) :: es), level, exact => by
    have exact : (Table.names ((k, v) :: es)).Nodup ∧ ExactEntries ((k, v) :: es) := exact
    have entries := weightEntries_le ((k, v) :: es) (level + 1) exact.2
    have text := toList_record level k v es []
    rw [List.append_nil] at text
    rw [text]
    simp only [weight, List.length_cons, List.length_append]
    omega

theorem weightItems_le : ∀ (vs : List Value) (level : Nat), ExactItems vs →
    weightItems vs ≤ (body level (writeItems level vs)).length + 1
  | [], level, _ => by simp [weightItems]
  | [v], level, exact => by
    have own := weight_le v level exact.1
    have part := (length_body_cons level (writeAt level v) []).1
    simp only [weightItems, writeItems]
    omega
  | v :: w :: vs, level, exact => by
    have own := weight_le v level exact.1
    have others := weightItems_le (w :: vs) level exact.2
    have part := (length_body_cons level (writeAt level v) (writeItems level (w :: vs))).2
      (by simp [writeItems])
    rw [writeItems, weightItems]
    omega

theorem weightEntries_le : ∀ (es : List (String × Value)) (level : Nat), ExactEntries es →
    weightEntries es ≤ (body level (writeEntries level es)).length + 1
  | [], level, _ => by simp [weightEntries]
  | [(k, v)], level, exact => by
    have own := weight_le v level exact.1
    have part := (length_body_cons level (writeString k ++ ": " ++ writeAt level v) []).1
    rw [toList_entry] at part
    simp only [List.length_cons, List.length_append] at part
    simp only [weightEntries, writeEntries]
    omega
  | (k, v) :: (l, w) :: es, level, exact => by
    have own := weight_le v level exact.1
    have others := weightEntries_le ((l, w) :: es) level exact.2
    have part := (length_body_cons level (writeString k ++ ": " ++ writeAt level v)
      (writeEntries level ((l, w) :: es))).2 (by simp [writeEntries])
    rw [toList_entry] at part
    simp only [List.length_cons, List.length_append] at part
    rw [writeEntries, weightEntries]
    omega

end

/-- A value is read back from its text. -/
theorem read_write {v : Value} (h : Exact v) : read (write v) = .ok v := by
  obtain ⟨c, cs, hcs, space, -, unmarked⟩ := head_writeAt 0 h
  have enough := weight_le v 0 h
  have result := value_writeAt v 0 (2 * (writeAt 0 v).toList.length + 2) [] h (by omega)
    (by intro d hd; cases hd)
  rw [List.append_nil] at result
  have start : skip (writeAt 0 v).toList = (writeAt 0 v).toList := by
    rw [hcs]
    exact skip_cons space cs
  have mark : (writeAt 0 v).toList.head? ≠ some '\ufeff' := by
    rw [hcs]
    intro same
    exact unmarked (Option.some.inj same)
  simp only [read, write, start, result]
  rw [if_neg mark]
  rfl

private theorem gap_ne_return {level : Nat} {c : Char} (h : c ∈ gap level) : c ≠ '\r' := by
  rcases List.mem_cons.mp h with rfl | h
  · decide
  · rw [List.eq_of_mem_replicate h]
    decide

private theorem body_ne_return {level : Nat} {parts : List String}
    (each : ∀ part ∈ parts, ∀ c ∈ part.toList, c ≠ '\r') :
    ∀ c ∈ body level parts, c ≠ '\r' := by
  induction parts with
  | nil => simp [body]
  | cons part parts ih =>
    have own := each part List.mem_cons_self
    have others := ih fun q hq => each q (List.mem_cons_of_mem part hq)
    cases parts with
    | nil => rwa [body_singleton]
    | cons other parts =>
      intro c hc
      rw [body_cons_cons] at hc
      rcases List.mem_append.mp hc with hc | hc
      · exact own c hc
      · rcases List.mem_cons.mp hc with rfl | hc
        · decide
        · rcases List.mem_append.mp hc with hc | hc
          · exact gap_ne_return hc
          · exact others c hc

private theorem block_ne_return {level : Nat} {opening closing : String} {parts : List String}
    (opens : ∀ c ∈ opening.toList, c ≠ '\r') (closes : ∀ c ∈ closing.toList, c ≠ '\r')
    (each : ∀ part ∈ parts, ∀ c ∈ part.toList, c ≠ '\r') :
    ∀ c ∈ (block level opening closing parts).toList, c ≠ '\r' := by
  intro c hc
  cases parts with
  | nil =>
    rw [toList_block_nil] at hc
    rcases List.mem_append.mp hc with hc | hc
    · exact opens c hc
    · exact closes c hc
  | cons part parts =>
    rw [toList_block_cons] at hc
    simp only [List.mem_append] at hc
    rcases hc with hc | hc | hc | hc | hc
    · exact opens c hc
    · exact gap_ne_return hc
    · exact body_ne_return each c hc
    · exact gap_ne_return hc
    · exact closes c hc

private theorem writeString_ne_return (s : String) : ∀ c ∈ (writeString s).toList, c ≠ '\r' := by
  intro c hc
  rw [toList_writeString] at hc
  rcases List.mem_cons.mp hc with rfl | hc
  · decide
  · rcases List.mem_append.mp hc with hc | hc
    · obtain ⟨d, -, hd⟩ := List.mem_flatMap.mp hc
      exact escapeChar_ne_return hd
    · rw [List.mem_singleton.mp hc]
      decide

mutual

theorem writeAt_ne_return : ∀ (v : Value) (level : Nat), Exact v →
    ∀ c ∈ (writeAt level v).toList, c ≠ '\r'
  | .null, level, _ => by simp [writeAt]
  | .bool true, level, _ => by simp [writeAt]
  | .bool false, level, _ => by simp [writeAt]
  | .num (.int i), level, _ => by
    intro c hc
    have text : (writeAt level (.num (.int i))).toList = (toString i).toList := by
      simp [writeAt, writeNumber]
    rw [text, toList_toString_int] at hc
    rcases List.mem_append.mp hc with hc | hc
    · by_cases negative : i < 0
      · rw [if_pos negative] at hc
        rw [List.mem_singleton.mp hc]
        decide
      · rw [if_neg negative] at hc
        cases hc
    · rintro rfl
      have digit := isDigit_of_mem_toDigits _ hc
      cases digit
  | .num (.real x), level, exact => by
    exact absurd exact (by simp [Exact])
  | .text s, level, _ => by
    rw [writeAt]
    exact writeString_ne_return s
  | .list vs, level, exact => by
    rw [writeAt]
    exact block_ne_return (by simp) (by simp) (writeItems_ne_return vs (level + 1) exact)
  | .record es, level, exact => by
    have exact : (Table.names es).Nodup ∧ ExactEntries es := exact
    rw [writeAt]
    exact block_ne_return (by simp) (by simp) (writeEntries_ne_return es (level + 1) exact.2)

theorem writeItems_ne_return : ∀ (vs : List Value) (level : Nat), ExactItems vs →
    ∀ part ∈ writeItems level vs, ∀ c ∈ part.toList, c ≠ '\r'
  | [], level, _ => by simp [writeItems]
  | v :: vs, level, exact => by
    intro part hpart
    rw [writeItems] at hpart
    rcases List.mem_cons.mp hpart with rfl | hpart
    · exact writeAt_ne_return v level exact.1
    · exact writeItems_ne_return vs level exact.2 part hpart

theorem writeEntries_ne_return : ∀ (es : List (String × Value)) (level : Nat), ExactEntries es →
    ∀ part ∈ writeEntries level es, ∀ c ∈ part.toList, c ≠ '\r'
  | [], level, _ => by simp [writeEntries]
  | (k, v) :: es, level, exact => by
    intro part hpart
    rw [writeEntries] at hpart
    rcases List.mem_cons.mp hpart with rfl | hpart
    · intro c hc
      rw [String.toList_append, String.toList_append] at hc
      simp only [List.mem_append] at hc
      rcases hc with (hc | hc) | hc
      · exact writeString_ne_return k c hc
      · have mark : c = ':' ∨ c = ' ' := by simpa using hc
        rcases mark with rfl | rfl <;> decide
      · exact writeAt_ne_return v level exact.1 c hc
    · exact writeEntries_ne_return es level exact.2 part hpart

end

end RungLogic.Json
