import Mathlib.Data.List.Basic
import RungLogic.Network.Drawing

/-!
Markup, read. A text is read one character after the other, in the place to which the reading has come: in the
text between tags, within a tag, within the key or the value of an attribute. The tokens that it yields are the
names of tags, the keys and the values of attributes and the texts between tags, with entities for their
characters. Text that is blank is layout and gives no token.
-/

set_option autoImplicit false
set_option relaxedAutoImplicit false

namespace RungLogic.Markup

/-- Where the reading of a text has come to. Between attributes it comes to a gap, behind a value to the place
where a gap is to follow, and behind the mark that makes a tag its own end to the end of the tag. -/
inductive Place where
  | text | opening | tag | closing | gap | key | equals | value | after | mark
  deriving DecidableEq, Repr

/-- What stands in one place: a name, a key, a value, a text, or a mark. -/
structure Token where
  place : Place
  body : String
  deriving DecidableEq, Repr

/-- How far a text is read: the place, what stands there so far and the name of an entity that has begun, both
with the last character first. -/
structure State where
  place : Place
  read : List Char := []
  entity : Option (List Char) := none
  deriving DecidableEq, Repr

def isBlank (c : Char) : Bool := c = ' ' || c = '\t' || c = '\n' || c = '\r'

def isNameChar (c : Char) : Bool := c.isAlphanum || c = ':' || c = '.' || c = '-' || c = '_'

/-- The character that an entity stands for. -/
def entity? (name : String) : Option Char :=
  [("amp", '&'), ("lt", '<'), ("gt", '>'), ("quot", '"'), ("apos", '\x27')].lookup name

namespace State

def token (st : State) : Token := ⟨st.place, String.ofList st.read.reverse⟩

def more (st : State) (c : Char) : State := { st with read := c :: st.read }

/-- A character that ends a tag, or the mark before its end. -/
def leaveTag (found : List Token) (c : Char) : Option (List Token × State) :=
  if c = '>' then some (found, { place := .text })
  else if c = '/' ∨ c = '?' then some (found ++ [⟨.mark, String.singleton c⟩], { place := .mark })
  else none

/-- One more character where no entity has begun. -/
def stepPlain (st : State) (c : Char) : Option (List Token × State) :=
  match st.place with
  | .text =>
    if c = '<' then some (if st.read.all isBlank then [] else [st.token], { place := .opening })
    else if c = '&' then some ([], { st with entity := some [] })
    else some ([], st.more c)
  | .opening =>
    if c = '/' then some ([], { place := .closing })
    else if c = '?' || isNameChar c then some ([], { place := .tag, read := [c] })
    else none
  | .tag =>
    if isNameChar c then some ([], st.more c)
    else if isBlank c then some ([st.token], { place := .gap })
    else leaveTag [st.token] c
  | .closing =>
    if isNameChar c then some ([], st.more c)
    else if c = '>' then some ([st.token], { place := .text })
    else none
  | .gap =>
    if isNameChar c then some ([], { place := .key, read := [c] })
    else if isBlank c then some ([], st)
    else leaveTag [] c
  | .key =>
    if isNameChar c then some ([], st.more c)
    else if c = '=' then some ([st.token], { place := .equals })
    else none
  | .equals => if c = '"' then some ([], { place := .value }) else none
  | .value =>
    if c = '"' then some ([st.token], { place := .after })
    else if c = '<' then none
    else if c = '&' then some ([], { st with entity := some [] })
    else some ([], st.more c)
  | .after => if isBlank c then some ([], { place := .gap }) else leaveTag [] c
  | .mark => if c = '>' then some ([], { place := .text }) else none

/-- One more character: the tokens that it completes, and how far the text is read then. -/
def step (st : State) (c : Char) : Option (List Token × State) :=
  match st.entity with
  | none => st.stepPlain c
  | some name =>
    if c = ';' then
      (entity? (String.ofList name.reverse)).map fun d =>
        ([], { st with read := d :: st.read, entity := none })
    else some ([], { st with entity := some (c :: name) })

/-- A text is at its end between tags, with nothing but layout behind the last. -/
def isEnd (st : State) : Bool := st.place = .text && st.entity.isNone && st.read.all isBlank

end State

def run : State → List Char → Option (List Token × State)
  | st, [] => some ([], st)
  | st, c :: rest => do
    let (found, mid) ← st.step c
    let (others, last) ← run mid rest
    return (found ++ others, last)

/-- Whether the tags end in the order in which they must: each before those that begin before it. -/
def nested : List String → List Token → Bool
  | names, [] => names.isEmpty
  | names, ⟨.tag, name⟩ :: rest => nested (name :: names) rest
  | name :: names, ⟨.closing, other⟩ :: rest => name = other && nested names rest
  | name :: names, ⟨.mark, mark⟩ :: rest =>
    ((name.toList.head? == some '?') == (mark == "?")) && nested names rest
  | [], ⟨.closing, _⟩ :: _ => false
  | [], ⟨.mark, _⟩ :: _ => false
  | names, _ :: rest => nested names rest

def isLegal (c : Char) : Bool :=
  c = '\t' || c = '\n' || c = '\r' || (32 ≤ c.toNat && c ≠ '\uFFFE' && c ≠ '\uFFFF')

def IsLegal (s : String) : Prop := ∀ c ∈ s.toList, isLegal c = true

instance (s : String) : Decidable (IsLegal s) :=
  decidable_of_iff (s.toList.all isLegal = true) List.all_eq_true

/-- The tokens of a text whose characters are legal and whose tags are nested. -/
def read (text : String) : Option (List Token) := do
  let (found, last) ← run { place := .text } text.toList
  if IsLegal text ∧ last.isEnd ∧ nested [] found then some found else none

example : read "<a b=\"&lt;1&gt;\"> <c>two &amp; three</c>\n</a>" =
    some [⟨.tag, "a"⟩, ⟨.key, "b"⟩, ⟨.value, "<1>"⟩, ⟨.tag, "c"⟩, ⟨.text, "two & three"⟩,
      ⟨.closing, "c"⟩, ⟨.closing, "a"⟩] := by decide +kernel

variable {st mid last : State} {s t : List Char} {ps qs : List Token}

theorem isLegal_append_iff {s t : String} : IsLegal (s ++ t) ↔ IsLegal s ∧ IsLegal t := by
  simp only [IsLegal, String.toList_append, List.forall_mem_append]

private theorem run_append (h : run st s = some (ps, mid)) (t : List Char) :
    run st (s ++ t) = (run mid t).map fun r => (ps ++ r.1, r.2) := by
  induction s generalizing st ps with
  | nil =>
    cases h
    simp
  | cons c s ih =>
    obtain ⟨⟨first, next⟩, stepped, h⟩ := Option.bind_eq_some_iff.mp h
    obtain ⟨⟨others, end_⟩, later, h⟩ := Option.bind_eq_some_iff.mp h
    cases h
    simp only [List.cons_append, run, stepped, ih later, Option.bind_eq_bind, Option.bind_some]
    cases run mid t <;> simp

theorem run_trans (first : run st s = some (ps, mid)) (second : run mid t = some (qs, last)) :
    run st (s ++ t) = some (ps ++ qs, last) := by
  rw [run_append first, second, Option.map_some]

/-- A text has these tokens from a state on, and then is at its end. -/
def Reads (st : State) (text : List Char) (ps : List Token) : Prop :=
  ∃ last, run st text = some (ps, last) ∧ last.isEnd = true

theorem read_eq_some_iff {text : String} :
    read text = some ps ↔
      IsLegal text ∧ Reads { place := .text } text.toList ps ∧ nested [] ps = true := by
  constructor
  · intro h
    obtain ⟨⟨found, last⟩, run, h⟩ := Option.bind_eq_some_iff.mp h
    obtain ⟨⟨legal, ends, nested⟩, found⟩ := Option.ite_none_right_eq_some.mp h
    cases found
    exact ⟨legal, ⟨last, run, ends⟩, nested⟩
  · rintro ⟨legal, ⟨last, run, ends⟩, nested⟩
    simp [read, run, legal, ends, nested]

theorem reads_append_iff (h : run st s = some (ps, mid)) :
    Reads st (s ++ t) (ps ++ qs) ↔ Reads mid t qs := by
  rw [Reads, Reads, run_append h]
  constructor
  · rintro ⟨last, run, ends⟩
    obtain ⟨⟨others, end_⟩, later, same⟩ := Option.map_eq_some_iff.mp run
    obtain ⟨tokens, rfl⟩ := Prod.mk.inj same
    obtain rfl : others = qs := List.append_cancel_left tokens
    exact ⟨end_, later, ends⟩
  · rintro ⟨last, run, ends⟩
    exact ⟨last, by rw [run, Option.map_some], ends⟩

private theorem run_escapeMarkup {place : Place} {c : Char}
    (inside : place = .text ∨ place = .value ∧ c ≠ '"') (read : List Char) :
    run { place, read } (Network.escapeMarkup c) = some ([], { place, read := c :: read }) := by
  unfold Network.escapeMarkup
  split
  · subst c
    rcases inside with rfl | ⟨rfl, -⟩ <;> rfl
  split
  · subst c
    rcases inside with rfl | ⟨rfl, -⟩ <;> rfl
  split
  · subst c
    rcases inside with rfl | ⟨rfl, -⟩ <;> rfl
  · rename_i amp lt gt
    rcases inside with rfl | ⟨rfl, quote⟩ <;>
      simp [run, State.step, State.stepPlain, State.more, *]

private theorem run_flatMap_escapeMarkup {place : Place}
    (inside : place = .text ∨ place = .value ∧ '"' ∉ s) (read : List Char) :
    run { place, read } (s.flatMap Network.escapeMarkup) =
      some ([], { place, read := s.reverse ++ read }) := by
  induction s generalizing read with
  | nil => rfl
  | cons c s ih =>
    have first : place = .text ∨ place = .value ∧ c ≠ '"' :=
      inside.imp_right fun h => ⟨h.1, fun same => h.2 (by simp [same])⟩
    have others : place = .text ∨ place = .value ∧ '"' ∉ s :=
      inside.imp_right fun h => ⟨h.1, fun mem => h.2 (List.mem_cons_of_mem c mem)⟩
    rw [List.flatMap_cons, run_trans (run_escapeMarkup first read) (ih others (c :: read))]
    simp

theorem run_value {s : String} (noQuote : '"' ∉ s.toList) :
    run { place := .value } ((Network.markup s).toList ++ ['"']) =
      some ([⟨.value, s⟩], { place := .after }) := by
  have body := run_flatMap_escapeMarkup (.inr ⟨rfl, noQuote⟩) []
  rw [Network.markup, String.toList_ofList, run_append body]
  simp [run, State.step, State.stepPlain, State.token]

/-- A value is read as it was exactly if it has no quote. One with quotes ends at the first of them. -/
theorem reads_value_iff {s : String} :
    Reads { place := .value } ((Network.markup s).toList ++ '"' :: t) (⟨.value, s⟩ :: ps) ↔
      '"' ∉ s.toList ∧ Reads { place := .after } t ps := by
  rw [List.append_cons]
  by_cases quote : '"' ∈ s.toList
  · obtain ⟨before, behind, split, noQuote⟩ := List.eq_append_cons_of_mem quote
    refine ⟨fun ⟨last, read, _⟩ => ?_, fun h => absurd quote h.1⟩
    have text : (Network.markup s).toList =
        (Network.markup (String.ofList before)).toList ++ ['"'] ++
          behind.flatMap Network.escapeMarkup := by
      rw [Network.markup, Network.markup, String.toList_ofList, String.toList_ofList,
        String.toList_ofList, split, List.flatMap_append, List.flatMap_cons, List.append_assoc]
      rfl
    have noQuote : '"' ∉ (String.ofList before).toList := by rwa [String.toList_ofList]
    rw [text, List.append_assoc, List.append_assoc, run_append (run_value noQuote)] at read
    obtain ⟨r, -, same⟩ := Option.map_eq_some_iff.mp read
    have value : String.ofList before = s := by simpa using congrArg List.head? (Prod.mk.inj same).1
    exact absurd quote (value ▸ noQuote)
  · rw [and_iff_right quote]
    exact reads_append_iff (run_value quote)

theorem run_text {s : String} (shown : ∃ c ∈ s.toList, isBlank c = false) :
    run { place := .text } ((Network.markup s).toList ++ ['<']) =
      some ([⟨.text, s⟩], { place := .opening }) := by
  have body := run_flatMap_escapeMarkup (s := s.toList) (.inl rfl) []
  have some : s.toList.all isBlank = false := by simpa using shown
  rw [Network.markup, String.toList_ofList, run_append body]
  simp [run, State.step, State.stepPlain, State.token, some]

end RungLogic.Markup
