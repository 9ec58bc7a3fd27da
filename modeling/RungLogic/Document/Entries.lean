import RungLogic.Error

/-!
The entries of a list in a document are read one by one, each on its own. All faults are gathered in
the order of the entries, each with the place of its entry.
-/

set_option autoImplicit false
set_option relaxedAutoImplicit false

namespace RungLogic.Document

variable {α : Type}

/-- The faults of the entries from the one of that index on, and what the others hold. -/
def readFrom (place : Nat → Place) (read : Value → Except (List EntryFault) α) :
    Nat → List Value → List DocumentFault × List α
  | _, [] => ([], [])
  | index, v :: rest =>
    let (faults, found) := readFrom place read (index + 1) rest
    match read v with
    | .ok a => (faults, a :: found)
    | .error own => (own.map (.entry (place index)) ++ faults, found)

/-- The faults of the entries of a list, and what the entries without fault hold. -/
def readEntries (place : Nat → Place) (read : Value → Except (List EntryFault) α)
    (entries : List Value) : List DocumentFault × List α :=
  readFrom place read 0 entries

/-- The faults of a part, of which each is the refusal of a check. -/
def refuse (result : Except (List Fault) α) : Except (List EntryFault) α :=
  result.mapError (List.map .refused)

end RungLogic.Document
