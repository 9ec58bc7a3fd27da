import Mathlib.Data.List.Forall2
import RungLogic.Instruction.Document
import RungLogic.Proofs.Json.RoundTrip
import RungLogic.Proofs.Network.Document

/-!
Programs and their documents. The document of a program whose modifiers are names is read back as
that program, and its JSON text is read back as the document.
-/

set_option autoImplicit false
set_option relaxedAutoImplicit false

namespace RungLogic

namespace Instruction

private theorem ofEntry_entry {i : Instruction} (h : i.Valid) : ofEntry i.entry = .ok i := by
  have made : ofValues (.text i.operator.name) (.ofText? i.operand) (.ofText? i.modifier) =
      .ok i := (mapError_ok_iff _ _ i).mp h.make_eq
  have accepted := (Document.refuse_ok_iff _ i).mpr made
  simpa [ofEntry, entry, Table.value?, Value.field] using accepted

private theorem ofValues_ne_nil (operator operand modifier : Value) :
    ofValues operator operand modifier ≠ .error [] := by
  intro h
  unfold ofValues at h
  split at h
  · cases h
  · rename_i unfit
    have none := Except.error.inj h
    simp only [faults, List.append_eq_nil_iff, faultUnless_eq_nil_iff] at none
    obtain ⟨o, ho⟩ := Option.isSome_iff_exists.mp none.1.1
    obtain ⟨a, ha⟩ := Option.isSome_iff_exists.mp none.1.2
    obtain ⟨m, hm⟩ := Option.isSome_iff_exists.mp none.2
    exact unfit o a m ho ha hm

theorem ofEntry_ne_nil (v : Value) : ofEntry v ≠ .error [] := by
  intro h
  cases v with
  | record fields =>
    simp only [ofEntry] at h
    split at h
    · cases h
    · exact Document.refuse_ne_nil (ofValues_ne_nil _ _ _) h
  | _ => cases h

theorem exact_ofText? (s : Option String) : Json.Exact (.ofText? s) := by
  cases s <;> simp [Value.ofText?, Json.Exact]

private theorem exact_entry (i : Instruction) : Json.Exact i.entry := by
  simp [entry, Json.Exact, Json.ExactEntries, Table.names, exact_ofText?]

end Instruction

namespace Json

theorem exactItems_iff (vs : List Value) : ExactItems vs ↔ ∀ v ∈ vs, Exact v := by
  induction vs with
  | nil => simp [ExactItems]
  | cons v vs ih => simp [ExactItems, ih]

end Json

namespace Program

theorem ofDocument_document {p : Program} (h : ∀ i ∈ p, i.Valid) :
    ofDocument p.document = .ok p := by
  have read : Document.readEntries Place.instruction Instruction.ofEntry
      (p.map Instruction.entry) = ([], p) := by
    apply (Document.readFrom_iff _ _ Instruction.ofEntry_ne_nil 0 _ _).mpr
    rw [List.forall₂_map_left_iff, List.forall₂_same]
    intro i hi
    exact Instruction.ofEntry_entry (h i hi)
  have entries : entries? p.document = some (p.map Instruction.entry) := by
    simp [entries?, document, Value.field, Table.value?]
  simp only [ofDocument, entries, read]

theorem exact_document (p : Program) : Json.Exact p.document := by
  have items : Json.ExactItems (p.map Instruction.entry) := by
    rw [Json.exactItems_iff]
    intro v hv
    obtain ⟨i, -, rfl⟩ := List.mem_map.mp hv
    exact i.exact_entry
  simp [document, Json.Exact, Json.ExactEntries, Table.names, items]

end Program

end RungLogic
