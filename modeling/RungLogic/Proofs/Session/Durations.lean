import RungLogic.Proofs.Presets
import RungLogic.Proofs.Text.Runs
import RungLogic.Session.Entry

/-!
Durations typed at the prompt. A text that begins as a duration is taken for one where a duration is asked
for, and where nothing is: no number and no truth word holds the mark after its first letter. A literal gives
what it denotes, and is refused for its length alone. A text that only begins as one, in letters of another
case or with another unit, is not refused but gives a second.
-/

set_option autoImplicit false
set_option relaxedAutoImplicit false

namespace RungLogic

/-! The mark `#` stands in no word without it, whatever the case of the letters, and in no number. -/

private theorem Text.lowered_ne_of_mark {cs : List Char} (mark : '#' ∈ cs) {word : String}
    (unmarked : '#' ∉ word.toList) : String.ofList (cs.map Char.toLower) ≠ word := by
  rintro rfl
  rw [String.toList_ofList] at unmarked
  exact unmarked (List.mem_map_of_mem (f := Char.toLower) mark)

namespace Number

private theorem digitGroup?_of_mark {cs : List Char} (mark : '#' ∈ cs) : digitGroup? cs = none := by
  fun_induction digitGroup? cs with
  | case1 => rfl
  | case2 c =>
    obtain rfl := List.mem_singleton.mp mark
    decide
  | case3 c rest ih =>
    rcases List.mem_cons.mp mark with rfl | mark
    · rfl
    · have behind : '#' ∈ rest := (List.mem_cons.mp mark).resolve_left (by decide)
      simp [ih behind]
  | case4 c rest _ _ ih =>
    rcases List.mem_cons.mp mark with rfl | mark
    · rfl
    · simp [ih mark]

private theorem takeSign_of_mark {cs : List Char} (mark : '#' ∈ cs) : '#' ∈ (takeSign cs).2 := by
  unfold takeSign
  split
  · exact (List.mem_cons.mp mark).resolve_left (by decide)
  · exact (List.mem_cons.mp mark).resolve_left (by decide)
  · exact mark

private theorem signedDigits?_of_mark {cs : List Char} (mark : '#' ∈ cs) : signedDigits? cs = none := by
  simp [signedDigits?, digitGroup?_of_mark (takeSign_of_mark mark)]

private theorem optionalGroup?_of_mark {cs : List Char} (mark : '#' ∈ cs) : optionalGroup? cs = none := by
  have some : cs.isEmpty = false := List.isEmpty_eq_false_iff.mpr (List.ne_nil_of_mem mark)
  simp [optionalGroup?, some, digitGroup?_of_mark mark]

private theorem cutAt_of_mark {p : Char → Bool} (other : p '#' = false) {cs : List Char} (mark : '#' ∈ cs) :
    '#' ∈ (cutAt p cs).1 ∨ ∃ part, (cutAt p cs).2 = some part ∧ '#' ∈ part := by
  induction cs with
  | nil => cases mark
  | cons c rest ih =>
    rw [cutAt]
    by_cases cut : p c = true
    · rw [if_pos cut]
      rcases List.mem_cons.mp mark with rfl | mark
      · cases other.symm.trans cut
      · exact .inr ⟨rest, rfl, mark⟩
    · rw [if_neg cut]
      rcases List.mem_cons.mp mark with rfl | mark
      · exact .inl List.mem_cons_self
      · exact (ih mark).imp_left (List.mem_cons_of_mem c)

private theorem decimal?_of_mark {cs : List Char} (mark : '#' ∈ cs) : decimal? cs = none := by
  let isPower (c : Char) : Bool := c = 'e' || c = 'E'
  let isPoint (c : Char) : Bool := c = '.'
  have noPower : isPower '#' = false := by decide
  have noPoint : isPoint '#' = false := by decide
  rcases cutAt_of_mark noPower mark with mantissa | ⟨power, cut, mark⟩
  · rcases cutAt_of_mark noPoint mantissa with whole | ⟨part, cut, mark⟩
    · simp [decimal?, isPower, isPoint, optionalGroup?_of_mark whole]
    · simp [decimal?, isPower, isPoint, cut, optionalGroup?_of_mark mark]
  · simp [decimal?, isPower, cut, signedDigits?_of_mark mark]

private theorem namedReal?_of_mark {cs : List Char} (mark : '#' ∈ cs) : namedReal? cs = none := by
  have words : '#' ∉ "inf".toList ∧ '#' ∉ "infinity".toList ∧ '#' ∉ "nan".toList := by decide
  simp [namedReal?, Text.lowered_ne_of_mark mark words.1, Text.lowered_ne_of_mark mark words.2.1,
    Text.lowered_ne_of_mark mark words.2.2]

private theorem readInteger?_of_mark {s : String} (mark : '#' ∈ s.toList) : readInteger? s = none :=
  signedDigits?_of_mark (Text.mem_trimBy mark (by decide))

private theorem readReal?_of_mark {s : String} (mark : '#' ∈ s.toList) : readReal? s = none := by
  have rest := takeSign_of_mark (Text.mem_trimBy (p := isNumberBlank) mark (by decide))
  simp [readReal?, namedReal?_of_mark rest, decimal?_of_mark rest]

end Number

namespace Session

open Preset (Denotes)

/-- Without the blanks around it the text begins with `T#`, in either case of the letter. -/
def OpensDuration (text : String) : Prop :=
  ∃ rest, (Text.trim text).toList = 'T' :: '#' :: rest ∨ (Text.trim text).toList = 't' :: '#' :: rest

theorem looksLikeDuration_iff {text : String} : looksLikeDuration text = true ↔ OpensDuration text := by
  constructor
  · intro looks
    unfold looksLikeDuration at looks
    split at looks
    · rename_i rest opens
      exact ⟨rest, .inr opens⟩
    · rename_i rest opens
      exact ⟨rest, .inl opens⟩
    · cases looks
  · rintro ⟨rest, opens | opens⟩
    · rw [looksLikeDuration, opens]
      rfl
    · rw [looksLikeDuration, opens]
      rfl

private theorem OpensDuration.mem_trim {text : String} (opens : OpensDuration text) :
    '#' ∈ (Text.trim text).toList := by
  rcases opens with ⟨rest, opens | opens⟩
  · rw [opens]
    exact List.mem_cons_of_mem _ List.mem_cons_self
  · rw [opens]
    exact List.mem_cons_of_mem _ List.mem_cons_self

theorem OpensDuration.mem {text : String} (opens : OpensDuration text) : '#' ∈ text.toList := by
  have mark := opens.mem_trim
  rw [Text.trim, String.toList_ofList] at mark
  exact Text.mem_of_mem_trimBy mark

theorem OpensDuration.readInteger {text : String} (opens : OpensDuration text) :
    ∃ fault, readInteger text = .error fault := by
  rcases excess : Number.excess? text with _ | digits
  · exact ⟨_, by rw [Session.readInteger, excess, Number.readInteger?_of_mark opens.mem]⟩
  · exact ⟨_, by rw [Session.readInteger, excess]⟩

theorem OpensDuration.readAny {text : String} (opens : OpensDuration text) :
    readAny text = readDuration text := by
  obtain ⟨fault, noInteger⟩ := opens.readInteger
  have noWord : ¬ ["true", "false"].contains (Text.lowerASCII (Text.trim text)) = true := by
    have words : '#' ∉ "true".toList ∧ '#' ∉ "false".toList := by decide
    simp [Text.lowerASCII, Text.lowered_ne_of_mark opens.mem_trim words.1,
      Text.lowered_ne_of_mark opens.mem_trim words.2]
  rw [Session.readAny, if_neg noWord, noInteger, Number.readReal?_of_mark opens.mem]
  exact if_pos (looksLikeDuration_iff.mpr opens)

theorem OpensDuration.readValue {text : String} (opens : OpensDuration text) {type : Option VarType}
    (asked : type = some .time ∨ type = none) : readValue type text = readDuration text := by
  rcases asked with rfl | rfl
  · rw [Session.readValue, looksLikeDuration_iff.mpr opens, if_pos rfl]
  · exact opens.readAny

theorem readDuration_of_denotes {text : String} {n : Nat} (denotes : Denotes (Text.trim text).toList n) :
    readDuration text =
      if Number.digitLimit < Preset.literalLength (Text.trim text).toList then
        .error (.unreadable (Preset.literalLength (Text.trim text).toList))
      else .ok (.int n) := by
  rw [readDuration, Preset.excess?_of_denotes denotes, duration, Preset.textDuration_of_denotes denotes]
  by_cases long : Number.digitLimit < Preset.literalLength (Text.trim text).toList
  · rw [if_pos long, if_pos long]
  · rw [if_neg long, if_neg long]

private theorem readDuration_of_not_denotes {text : String}
    (nothing : ¬ ∃ n, Denotes (Text.trim text).toList n) : readDuration text = .ok (.int 1000) := by
  rw [readDuration, Preset.excess?_of_not_denotes nothing, duration,
    Preset.textDuration_of_not_denotes nothing]
  rfl

/-- A text that begins as a duration gives what it denotes when it is a literal, be it read as a duration or as
a value of any type, unless it has more digits than are read; then it is refused. When it is no literal it is
not refused, but gives a second, which it does not denote. -/
theorem durations_read {text : String} (opens : OpensDuration text) {type : Option VarType}
    (asked : type = some .time ∨ type = none) :
    (∀ n, Denotes (Text.trim text).toList n →
      readValue type text =
        if Number.digitLimit < Preset.literalLength (Text.trim text).toList then
          .error (.unreadable (Preset.literalLength (Text.trim text).toList))
        else .ok (.int n)) ∧
      ((¬ ∃ n, Denotes (Text.trim text).toList n) → readValue type text = .ok (.int 1000)) := by
  rw [opens.readValue asked]
  exact ⟨fun n denotes => readDuration_of_denotes denotes, readDuration_of_not_denotes⟩

/-- A literal amid blanks, with a digit of another script, and a text that is none for its letter. -/
theorem hours_read :
    let hours := " T#２h\t"
    let small := "t#2h"
    (OpensDuration hours ∧ Denotes (Text.trim hours).toList 7200000 ∧
      readValue none hours = .ok (.int 7200000)) ∧
    OpensDuration small ∧ (¬ ∃ n, Denotes (Text.trim small).toList n) ∧
      readValue (some .time) small = .ok (.int 1000) := by
  intro hours small
  have opensHours : OpensDuration hours := ⟨['２', 'h'], .inl (by decide)⟩
  have opensSmall : OpensDuration small := ⟨['2', 'h'], .inr (by decide)⟩
  have denotes : Denotes (Text.trim hours).toList 7200000 :=
    Preset.literal?_eq_some_iff.mp (by decide)
  have nothing : ¬ ∃ n, Denotes (Text.trim small).toList n :=
    Preset.literal?_eq_none_iff.mp (by decide)
  have short : ¬ Number.digitLimit < Preset.literalLength (Text.trim hours).toList := by decide
  have read := (durations_read opensHours (.inr rfl)).1 _ denotes
  rw [if_neg short] at read
  exact ⟨⟨opensHours, denotes, read⟩, opensSmall, nothing, (durations_read opensSmall (.inl rfl)).2 nothing⟩

/-- A text with a unit in capitals begins as a duration and denotes none, but it is not refused. -/
theorem capital_unit_not_refused :
    let text := "T#5S"
    OpensDuration text ∧ (¬ ∃ n, Denotes (Text.trim text).toList n) ∧
      ∀ type ∈ [some VarType.time, none],
        ¬ ((∃ n, Denotes (Text.trim text).toList n ∧ readValue type text = .ok (.int n)) ∨
          ∃ fault, readValue type text = .error fault) := by
  intro text
  have opens : OpensDuration text := ⟨['5', 'S'], .inl (by decide)⟩
  have nothing : ¬ ∃ n, Denotes (Text.trim text).toList n :=
    Preset.literal?_eq_none_iff.mp (by decide)
  refine ⟨opens, nothing, ?_⟩
  rintro type asked (⟨n, denotes, -⟩ | ⟨fault, refused⟩)
  · exact nothing ⟨n, denotes⟩
  · have read : readValue type text = readDuration text := opens.readValue (by simpa using asked)
    cases (read.trans (readDuration_of_not_denotes nothing)).symm.trans refused

end Session

end RungLogic
