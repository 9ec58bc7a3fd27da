import Mathlib.Data.Prod.Lex
import RungLogic.Proofs.Build.Laid

/-!
The layout of built networks. Elements are laid in reading order: each one stands behind the one that was
laid before it in the same row, or in a later row. So no two of them share a cell.
-/

set_option autoImplicit false
set_option relaxedAutoImplicit false

namespace RungLogic

/-- A cell of the grid: its row and its column. Cells are ordered as they are read, row by row. -/
abbrev Spot := Nat ×ₗ Nat

namespace Position

/-- The first position lies in an earlier row, or in an earlier column of the same row. -/
def Before (p q : Position) : Prop :=
  p.y.compare? q.y = some .lt ∨ p.y.compare? q.y = some .eq ∧ p.x.compare? q.x = some .lt

/-- Both coordinates are equal as numbers. -/
def SameCell (p q : Position) : Prop := p.x.same q.x = true ∧ p.y.same q.y = true

private theorem Before.not_sameCell {p q : Position} (h : p.Before q) : ¬p.SameCell q := by
  rintro ⟨column, row⟩
  rcases h with above | ⟨-, left⟩
  · simp [Number.same, above] at row
  · simp [Number.same, left] at column

/-- Where an element in that cell stands. -/
def ofSpot (a : Spot) : Position := ⟨.int (ofLex a).2, .int (ofLex a).1⟩

private theorem before_ofSpot {a b : Spot} : (ofSpot a).Before (ofSpot b) ↔ a < b := by
  simp only [Before, ofSpot, Number.compare?, Option.some.injEq, Int.compare_eq_lt, Int.compare_eq_eq,
    Int.ofNat_lt, Int.natCast_inj, Prod.Lex.lt_iff]

end Position

/-- `Strung a es b`: the elements stand one behind the other, the first one at `a`, and all before `b`. -/
inductive Strung : Spot → List Element → Spot → Prop
  | nil (a : Spot) : Strung a [] a
  | cons {a b z : Spot} {e : Element} {rest : List Element} :
      e.position = .ofSpot a → a < b → Strung b rest z → Strung a (e :: rest) z

namespace Strung

variable {a b z : Spot} {es ds : List Element}

private theorem append (h : Strung a es b) (behind : Strung b ds z) : Strung a (es ++ ds) z := by
  induction h with
  | nil => exact behind
  | cons stands later _ ih => exact .cons stands later (ih behind)

private theorem le_of_mem (h : Strung a es z) {e : Element} (he : e ∈ es) :
    ∃ b, e.position = .ofSpot b ∧ a ≤ b := by
  induction h with
  | nil => cases he
  | @cons a b z d rest stands later _ ih =>
    rcases List.mem_cons.mp he with rfl | he
    · exact ⟨a, stands, le_refl a⟩
    · obtain ⟨c, there, beyond⟩ := ih he
      exact ⟨c, there, later.le.trans beyond⟩

private theorem pairwise_before (h : Strung a es z) :
    (es.map Element.position).Pairwise Position.Before := by
  induction h with
  | nil => exact .nil
  | @cons a b z e rest stands later tail ih =>
    refine List.pairwise_cons.mpr ⟨fun q hq => ?_, ih⟩
    obtain ⟨d, hd, rfl⟩ := List.mem_map.mp hq
    obtain ⟨c, there, beyond⟩ := tail.le_of_mem hd
    rw [stands, there, Position.before_ofSpot]
    exact later.trans_le beyond

end Strung

namespace Cursor

def spot (c : Cursor) : Spot := toLex (c.row, c.column)

private theorem strung_laid (c : Cursor) (operand : Option String) (cell : Cell) :
    Strung c.spot (c.laid operand cell).elements (c.lay operand cell).2.spot := by
  have along {ahead further : Nat} (h : ahead < further) :
      (toLex (c.row, c.column + ahead) : Spot) < toLex (c.row, c.column + further) :=
    Prod.Lex.toLex_lt_toLex.mpr (.inr ⟨rfl, Nat.add_lt_add_left h c.column⟩)
  have below : c.spot < c.nextRung.spot :=
    Prod.Lex.toLex_lt_toLex.mpr (.inl (Nat.lt_add_of_pos_right Nat.two_pos))
  cases cell with
  | load kind => exact .cons rfl (along Nat.two_pos) (.nil _)
  | store kind => exact .cons rfl below (.nil _)
  | gate side kind =>
    -- the block stands between its contact and the cursor behind both
    exact .cons rfl (along Nat.two_pos) (.cons rfl (along (by decide : 2 < 4)) (.nil _))
  | invert => exact .cons rfl (along Nat.two_pos) (.nil _)
  | preset kind fallback => exact .cons rfl (along (Nat.succ_pos 2)) (.nil _)
  | operand kind => exact .cons rfl (along (Nat.succ_pos 2)) (.nil _)

/-- A program lays its elements one behind the other. The cursor carries the induction: what the rest lays
begins where the cursor stands behind the first instruction. -/
private theorem strung_laids (c : Cursor) (p : Program) :
    Strung c.spot (laidElements (c.laids p)) (c.run p).2.spot := by
  induction p generalizing c with
  | nil => exact .nil c.spot
  | cons i rest ih =>
    rcases hcell : i.operator.cell? with _ | cell
    · simp only [laids, run, step, hcell]
      exact ih c
    · simp only [laids, run, step, hcell]
      exact (strung_laid c i.operand cell).append (ih (c.lay i.operand cell).2)

end Cursor

/-- Built networks are laid out in reading order: row by row, and from left to right in each row. So no two
elements share a cell. -/
theorem Program.build_in_reading_order (p : Program) (supply : Supply) : ∃ n next,
    p.build supply = (.ok n, next) ∧
      (n.elements.map Element.position).Pairwise Position.Before ∧
      (n.elements.map Element.position).Pairwise fun a b => ¬a.SameCell b := by
  obtain ⟨id, next, built⟩ := p.build_eq supply
  have ordered := (Cursor.strung_laids { supply := supply } p).pairwise_before
  exact ⟨_, next, built, ordered, ordered.imp Position.Before.not_sameCell⟩

/-- A gate stands two columns behind its contact. What follows a store stands in a later row, also when it is
a store without a rung. -/
example :
    (laidElements (Program.laids [⟨.ld, some "X1", none⟩, ⟨.and, some "X2", none⟩,
        ⟨.st, some "Y1", none⟩, ⟨.st, some "Y2", none⟩] {})).map Element.position =
      [.ofSpot (toLex (1, 1)), .ofSpot (toLex (1, 3)), .ofSpot (toLex (1, 5)),
        .ofSpot (toLex (1, 7)), .ofSpot (toLex (3, 1))] := by
  rfl

end RungLogic
