/-!
A supply of fresh ids. Ids are drawn one after the other and never twice.
-/

set_option autoImplicit false
set_option relaxedAutoImplicit false

namespace RungLogic

/-- How many ids have been drawn. -/
structure Supply where
  drawn : Nat := 0
  deriving DecidableEq, Repr

def Supply.nth (number : Nat) : String := "id" ++ toString number

def Supply.draw (s : Supply) : String × Supply := (Supply.nth (s.drawn + 1), ⟨s.drawn + 1⟩)

end RungLogic
