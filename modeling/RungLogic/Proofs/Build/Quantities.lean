import RungLogic.Network.Build
import RungLogic.Network.Trace
import RungLogic.Proofs.Number.Numerals
import RungLogic.Proofs.Scan.Twins

/-!
Quantities written out and read back. The trace writes presets and operands as texts, and the blocks
that are built from these texts take them for what they stood for.
-/

set_option autoImplicit false
set_option relaxedAutoImplicit false

namespace RungLogic

namespace Preset

private theorem textDuration_text (a : Number) : textDuration a.text = standardDuration := by
  have literal : literal? a.text.toList = none := by
    unfold literal?
    split
    · rename_i rest start
      have first := Number.isNumeral_text a 'T' (by rw [start]; exact List.mem_cons_self)
      exact absurd rfl (Number.ne_literal_numeral first)
    · rfl
  have trimmed : Text.trimBy Text.isBlank a.text.toList = a.text.toList :=
    Text.trimBy_eq_self fun c hc => Number.isBlank_numeral (Number.isNumeral_text a c hc)
  rw [textDuration, trimmed, literal]
  rfl

private theorem duration_written {v : Value} (h : Element.isQuantity v = true) :
    duration (.text (Cursor.orElse (quantityText v) "T#1s")) = duration v := by
  have standard : textDuration "T#1s" = standardDuration := by decide
  cases v with
  | null => exact standard
  | num a =>
    have written : Cursor.orElse (quantityText (.num a)) "T#1s" = a.text :=
      if_neg a.text_ne_empty
    rw [written]
    exact textDuration_text a
  | text s =>
    show textDuration (if s = "" then "T#1s" else s) = textDuration s
    split
    · rename_i empty
      rw [empty, standard]
      rfl
    · rfl
  | bool b => cases h
  | list items => cases h
  | record entries => cases h

private theorem count_written {v : Value} (h : Element.isQuantity v = true) {s : String}
    (written : quantityText v = some s) (nonempty : s ≠ "") (fallback : String) :
    count (.text (Cursor.orElse (quantityText v) fallback)) = count v := by
  have kept : Cursor.orElse (quantityText v) fallback = s := by
    rw [written]
    exact if_neg nonempty
  rw [kept]
  cases v with
  | null => cases written
  | num a =>
    obtain rfl : a.text = s := Option.some.inj written
    show (Number.readInteger? (Text.trim a.text)).getD 0 = _
    rw [a.trim_text]
    rcases a with i | x
    · show (Number.readInteger? (toString i)).getD 0 = i
      rw [Number.readInteger?_text]
      rfl
    · obtain ⟨negative, cs, y, spelling⟩ := Number.exists_spelling x
      show (Number.readInteger? (Number.realText x)).getD 0 = 0
      rw [spelling.readInteger?_text]
      rfl
  | text t =>
    obtain rfl : t = s := Option.some.inj written
    rfl
  | bool b => cases h
  | list items => cases h
  | record entries => cases h

end Preset

namespace Scan

private theorem namedOperand_text (store : Store) (e : Element) (a : Number) :
    namedOperand store e a.text = (.num a, []) := by
  rcases a with i | x
  · have read : Number.readInteger? (Text.trim (Number.int i).text) = some i := by
      rw [Number.trim_text]
      exact Number.readInteger?_text i
    simp only [namedOperand, read]
  · obtain ⟨negative, cs, y, spelling⟩ := Number.exists_spelling x
    have noInteger : Number.readInteger? (Text.trim (Number.real x).text) = none := by
      rw [Number.trim_text]
      exact spelling.readInteger?_text
    have read : Number.readReal? (Text.trim (Number.real x).text) = some x := by
      rw [Number.trim_text]
      exact spelling.readReal?_text
    simp only [namedOperand, noInteger, read]

private theorem namedOperand_fst (store : Store) (e d : Element) (s : String) :
    (namedOperand store d s).1 = (namedOperand store e s).1 := by
  unfold namedOperand
  dsimp only
  split
  · rfl
  · split
    · rfl
    · split
      · rfl
      · split <;> rfl

private theorem secondSide_written {e d : Element} (h : Element.isQuantity e.operand = true)
    (written : d.operand = .ofText? (quantityText e.operand)) (store : Store) (inputs : Table Signal) :
    (secondSide store d inputs).1 = (secondSide store e inputs).1 := by
  unfold secondSide
  rcases inputs.value? "in2" with _ | s
  · rw [written]
    cases hop : e.operand with
    | null => rfl
    | num a =>
      show (namedOperand store d a.text).1 = _
      rw [namedOperand_text]
    | text t => exact namedOperand_fst store e d t
    | bool b =>
      rw [hop] at h
      cases h
    | list items =>
      rw [hop] at h
      cases h
    | record entries =>
      rw [hop] at h
      cases h
  · rfl

end Scan

/-- Elements that keep their meaning when they are traced and built again: a counter has a preset, and
it is not empty. -/
structure Element.Measured (e : Element) : Prop where
  preset : Element.isQuantity e.preset = true
  operand : Element.isQuantity e.operand = true
  count : e.kind.isCounter = true → ∃ s, quantityText e.preset = some s ∧ s ≠ ""

namespace Kind

variable {k : Kind}

private theorem of_isContact_or_isCoil (h : k.isContact = true ∨ k.isCoil = true) :
    k.isTimer = false ∧ k.isCounter = false ∧ k.takesOperand = false := by
  rcases h with h | h <;> cases k <;> cases h <;> decide

theorem of_isGate (h : k.isGate = true) :
    k.isContact = false ∧ k.isCoil = false ∧ k.isTimer = false ∧ k.isCounter = false ∧
      k.takesOperand = false := by
  cases k <;> cases h <;> decide

private theorem of_isTimer (h : k.isTimer = true) :
    k.isContact = false ∧ k.isCoil = false ∧ k.isCounter = false ∧ k.takesOperand = false := by
  cases k <;> cases h <;> decide

private theorem of_isCounter (h : k.isCounter = true) :
    k.isContact = false ∧ k.isCoil = false ∧ k.isTimer = false ∧ k.takesOperand = false := by
  cases k <;> cases h <;> decide

private theorem of_takesOperand (h : k.takesOperand = true) :
    k.isContact = false ∧ k.isCoil = false ∧ k.isTimer = false ∧ k.isCounter = false := by
  cases k <;> cases h <;> decide

end Kind

namespace Element

variable {e d : Element}

theorem twin_of_kind (hkind : d.kind = e.kind)
    (plain : e.kind.isContact = false ∧ e.kind.isCoil = false ∧ e.kind.isTimer = false ∧
      e.kind.isCounter = false ∧ e.kind.takesOperand = false) : e.Twin d := by
  obtain ⟨contact, coil, timer, counter, operand⟩ := plain
  exact ⟨hkind, by simp [contact, coil], by simp [timer], by simp [counter], by simp [operand]⟩

theorem twin_named (hkind : d.kind = e.kind) (named : e.kind.isContact = true ∨ e.kind.isCoil = true)
    (hreference : d.reference? = e.reference?) : e.Twin d := by
  obtain ⟨timer, counter, operand⟩ := Kind.of_isContact_or_isCoil named
  exact ⟨hkind, fun _ => hreference, by simp [timer], by simp [counter], by simp [operand]⟩

theorem twin_timer (hkind : d.kind = e.kind) (timer : e.kind.isTimer = true) (measured : e.Measured)
    (written : d.preset = .text (Cursor.orElse (quantityText e.preset) "T#1s")) : e.Twin d := by
  obtain ⟨contact, coil, counter, operand⟩ := Kind.of_isTimer timer
  refine ⟨hkind, by simp [contact, coil], fun _ => ?_, by simp [counter], by simp [operand]⟩
  rw [written, Preset.duration_written measured.preset]

theorem twin_counter (hkind : d.kind = e.kind) (counter : e.kind.isCounter = true)
    (measured : e.Measured)
    (written : d.preset = .text (Cursor.orElse (quantityText e.preset) "10")) : e.Twin d := by
  obtain ⟨contact, coil, timer, operand⟩ := Kind.of_isCounter counter
  refine ⟨hkind, by simp [contact, coil], by simp [timer], fun _ => ?_, by simp [operand]⟩
  obtain ⟨s, text, nonempty⟩ := measured.count counter
  rw [written, Preset.count_written measured.preset text nonempty]

theorem twin_operand (hkind : d.kind = e.kind) (block : e.kind.takesOperand = true)
    (measured : e.Measured) (written : d.operand = .ofText? (quantityText e.operand)) :
    e.Twin d := by
  obtain ⟨contact, coil, timer, counter⟩ := Kind.of_takesOperand block
  refine ⟨hkind, by simp [contact, coil], by simp [timer], by simp [counter], fun _ => ?_⟩
  exact Scan.secondSide_written measured.operand written

end Element

end RungLogic
