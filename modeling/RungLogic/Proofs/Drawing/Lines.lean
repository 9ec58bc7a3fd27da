import RungLogic.Network.Drawing
import RungLogic.Proofs.Network.Coherence

/-!
What drawings in either form are made of: lines, which a line feed parts, and names that the kinds of
elements give, which have letters, digits and underscores only.
-/

set_option autoImplicit false
set_option relaxedAutoImplicit false

namespace RungLogic

theorem Text.toList_intercalate_feed (ls : List String) :
    ("\n".intercalate ls).toList = (ls.flatMap fun l => '\n' :: l.toList).tail := by
  have joined (l : String) (ls : List String) : ['\n'].intercalate (l.toList :: ls.map String.toList) =
      l.toList ++ ls.flatMap fun m => '\n' :: m.toList := by
    induction ls generalizing l with
    | nil => simp
    | cons m ls ih =>
      rw [List.map_cons, List.intercalate_cons_cons, ih m, List.flatMap_cons]
      simp
  cases ls with
  | nil => rfl
  | cons l ls => simpa using joined l ls

def Kind.isNameChar (c : Char) : Bool := c.isAlphanum || c = '_'

namespace Kind

theorem isNameChar_name (k : Kind) : ∀ c ∈ k.name.toList, isNameChar c = true :=
  List.all_eq_true.mp (by cases k <;> decide)

private theorem isNameChar_input (k : Kind) : ∀ p ∈ k.inputs, ∀ c ∈ p.toList, isNameChar c = true := by
  have all : ∀ p ∈ k.inputs, p.toList.all isNameChar = true := by cases k <;> decide
  exact fun p hp => List.all_eq_true.mp (all p hp)

private theorem isNameChar_output (k : Kind) : ∀ p ∈ k.outputs, ∀ c ∈ p.toList, isNameChar c = true := by
  have all : ∀ p ∈ k.outputs, p.toList.all isNameChar = true := by cases k <;> decide
  exact fun p hp => List.all_eq_true.mp (all p hp)

end Kind

namespace Network.Coherent

variable {n : Network}

theorem isNameChar_source (h : n.Coherent) {w : Connection} (drawn : w ∈ n.connections) :
    ∀ c ∈ w.source.port.toList, Kind.isNameChar c = true := by
  obtain ⟨e, -, -, port⟩ := h.source w drawn
  exact e.kind.isNameChar_output _ port

theorem isNameChar_target (h : n.Coherent) {w : Connection} (drawn : w ∈ n.connections) :
    ∀ c ∈ w.target.port.toList, Kind.isNameChar c = true := by
  obtain ⟨e, -, -, port⟩ := h.target w drawn
  exact e.kind.isNameChar_input _ port

end Network.Coherent

end RungLogic
