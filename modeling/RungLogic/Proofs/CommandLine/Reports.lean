import RungLogic.CommandLine
import RungLogic.Proofs.Session.Failures

/-!
What loading and saving can fail with. A program or a network that cannot be loaded gives an error of
those that the command line reports: a fault of the file, of its text or of the document in it. And so
does what cannot be saved. The one error that is not reported comes from a document that nests deeper than
its reader can follow.
-/

set_option autoImplicit false
set_option relaxedAutoImplicit false

namespace RungLogic

open CommandLine (isReported)

private theorem Instruction.isReported_of_parse {line : String} {e : Error}
    (h : parse line = .error e) (number : Nat) : isReported (e.atLine number) = true := by
  unfold parse at h
  split at h
  · obtain rfl := Except.error.inj h
    rfl
  · split at h
    · obtain rfl := Except.error.inj h
      rfl
    · rename_i word modifier split
      unfold make at h
      cases made : ofValues (.text word) (.ofText? (joined? _)) (.ofText? modifier) with
      | ok i =>
        rw [made] at h
        cases h
      | error faults =>
        rw [made] at h
        obtain rfl := Except.error.inj h
        rfl

namespace Program

private theorem isReported_of_parseFrom {number : Nat} {lines : List String} {e : Error}
    (h : parseFrom number lines = .error e) : isReported e = true := by
  induction lines generalizing number with
  | nil => cases h
  | cons line rest ih =>
    unfold parseFrom at h
    split at h
    · split at h
      · rename_i fault failed
        obtain rfl := Except.error.inj h
        exact Instruction.isReported_of_parse failed number
      · cases tail : parseFrom (number + 1) rest with
        | ok p =>
          rw [tail] at h
          cases h
        | error fault =>
          rw [tail] at h
          obtain rfl := Except.error.inj h
          exact ih tail
    · exact ih h

private theorem isReported_of_ofDocument {document : Value} {e : Error}
    (h : ofDocument document = .error e) : isReported e = true := by
  unfold ofDocument at h
  split at h
  · obtain rfl := Except.error.inj h
    rfl
  · split at h
    · cases h
    · obtain rfl := Except.error.inj h
      rfl

end Program

namespace Network

private theorem isReported_of_make {id : Value} {es : List Element} {cs : List Connection} {e : Error}
    (h : make id es cs = .error e) : isReported e = true := by
  unfold make at h
  split at h
  · cases h
  · obtain rfl := Except.error.inj h
    rfl
  · obtain rfl := Except.error.inj h
    rfl

private theorem isReported_of_ofDocument {document : Value} {e : Error}
    (h : ofDocument document = .error e) : isReported e = true := by
  cases document with
  | record fields =>
    simp only [ofDocument] at h
    split at h
    · exact isReported_of_make h
    · obtain rfl := Except.error.inj h
      rfl
  | _ =>
    obtain rfl := Except.error.inj h
    rfl

end Network

private theorem Json.isReported_of_read {s : String} {e : Error} (h : read s = .error e) :
    isReported e = true := by
  simp only [read] at h
  split at h
  · obtain rfl := Except.error.inj h
    rfl
  · split at h
    · obtain rfl := Except.error.inj h
      rfl
    · split at h
      · cases h
      · obtain rfl := Except.error.inj h
        rfl

namespace Workspace

variable {w : Workspace} {path : String} {e : Error}

private theorem isReported_of_read (h : w.read path = .error e) : isReported e = true := by
  simp only [Workspace.read] at h
  split at h
  · obtain rfl := Except.error.inj h
    rfl
  · split at h
    · obtain rfl := Except.error.inj h
      rfl
    · split at h
      · cases h
      · obtain rfl := Except.error.inj h
        rfl
      · obtain rfl := Except.error.inj h
        rfl

/-- The file at a path holds a document that nests deeper than its reader can follow. -/
def TooDeep (w : Workspace) (path : String) : Prop :=
  ∃ text, w.read (Path.normal path) = .ok text ∧ w.givesUp text = some .tooDeep

private theorem readDocument_error (h : w.readDocument (Path.normal path) = .error e) :
    isReported e = true ∨ e = .value .tooDeep ∧ w.TooDeep path := by
  rcases bind_error_iff.mp h with h | ⟨text, found, h⟩
  · exact .inl (isReported_of_read h)
  · split at h
    · rename_i fault gives
      cases h
      cases fault with
      | tooDeep => exact .inr ⟨rfl, text, found, gives⟩
      | _ => exact .inl rfl
    · exact .inl (Json.isReported_of_read h)

private theorem TooDeep.readDocument (h : w.TooDeep path) :
    w.readDocument (Path.normal path) = .error (.value .tooDeep) := by
  obtain ⟨text, found, gives⟩ := h
  rw [Workspace.readDocument, found]
  simp only [bind, Except.bind, gives]

theorem loadProgram_error (h : w.loadProgram path = .error e) :
    isReported e = true ∨ e = .value .tooDeep ∧ keepsText path = false ∧ w.TooDeep path := by
  unfold loadProgram at h
  split at h
  · rcases bind_error_iff.mp h with h | ⟨text, -, h⟩
    · exact .inl (isReported_of_read h)
    · exact .inl (Program.isReported_of_parseFrom h)
  · rename_i document
    rcases bind_error_iff.mp h with h | ⟨text, -, h⟩
    · exact (readDocument_error h).imp_right fun deep => ⟨deep.1, by simpa using document, deep.2⟩
    · exact .inl (Program.isReported_of_ofDocument h)

theorem TooDeep.loadProgram (h : w.TooDeep path) (document : keepsText path = false) :
    w.loadProgram path = .error (.value .tooDeep) := by
  rw [Workspace.loadProgram, document, if_neg Bool.false_ne_true, h.readDocument]
  rfl

theorem loadNetwork_error (h : w.loadNetwork path = .error e) :
    isReported e = true ∨ e = .value .tooDeep ∧ w.TooDeep path := by
  rcases bind_error_iff.mp h with h | ⟨document, -, h⟩
  · exact readDocument_error h
  · exact .inl (Network.isReported_of_ofDocument h)

theorem TooDeep.loadNetwork (h : w.TooDeep path) : w.loadNetwork path = .error (.value .tooDeep) := by
  rw [Workspace.loadNetwork, h.readDocument]
  rfl

end Workspace

end RungLogic
