import RungLogic.Network.Edit
import RungLogic.Proofs.Network.Parts

/-!
Edits of elements: an element moves to where both coordinates are numbers, and has a property set
under a text. What is refused is the draft with the change, and what is given differs in nothing
else.
-/

set_option autoImplicit false
set_option relaxedAutoImplicit false

namespace RungLogic

namespace Element

private theorem kind_eq_of_name {k l : Kind} (h : k.name = l.name) : k = l := by
  have found := Kind.ofName?_name k
  rw [h, Kind.ofName?_name l] at found
  exact (Option.some.inj found).symm

theorem RawProperties.put_ofTable (t : Table Value) (name : String) (value : Value) :
    (ofTable t).put (.text name) value = ofTable (t.put name value) := by
  induction t with
  | nil => rfl
  | cons p rest ih =>
    obtain ⟨k, v⟩ := p
    show put (.text name) value ((.text k, v) :: ofTable rest) = _
    by_cases same : k = name
    · simp [put, Table.put, Value.same, same, ofTable]
    · rw [put, ih]
      simp [Table.put, Value.same, same, ofTable]

private theorem RawProperties.key_of_put {t u : Table Value} {key value : Value}
    (h : (ofTable t).put key value = ofTable u) : ∃ name, key = .text name := by
  induction t generalizing u with
  | nil =>
    cases u with
    | nil => cases h
    | cons q rest =>
      have first := (List.cons.inj h).1
      exact ⟨q.1, (Prod.mk.inj first).1⟩
  | cons p rest ih =>
    obtain ⟨k, v⟩ := p
    have h : put key value ((.text k, v) :: ofTable rest) = ofTable u := h
    rw [put] at h
    split at h
    · rename_i same
      cases key with
      | text name => exact ⟨name, rfl⟩
      | _ => simp [Value.same, Value.number?] at same
    · cases u with
      | nil => cases h
      | cons q others => exact ih (List.cons.inj h).2

theorem move_ok_iff (e : Element) (p : Placement) (other : Element) :
    e.move p = .ok other ↔ ({ e.draft with position := p } : Draft).faults = [] ∧
      ∃ place, p.position? = some place ∧ other = { e with position := place } := by
  rw [move, mapError_ok_iff, Draft.check_ok_iff]
  constructor
  · rintro ⟨same, valid⟩
    refine ⟨?_, other.position, ?_⟩
    · rw [same]
      exact valid
    · obtain ⟨id', kind', place, properties'⟩ := other
      simp only [draft, Draft.mk.injEq, Value.text.injEq, Option.some.injEq] at same
      obtain ⟨rfl, kind, rfl, -, -, properties⟩ := same
      obtain rfl := kind_eq_of_name kind
      obtain rfl := RawProperties.ofTable_inj properties
      exact ⟨rfl, rfl⟩
  · rintro ⟨none, place, found, rfl⟩
    have same : ({ e.draft with position := p } : Draft) =
        ({ e with position := place } : Element).draft := by
      rw [Placement.eq_of_position? found]
      rfl
    refine ⟨same, ?_⟩
    rw [Valid, ← same]
    exact none

def draftWith (e : Element) (key value : Value) : Draft :=
  { e.draft with properties := some ((RawProperties.ofTable e.properties).put key value) }

theorem key_of_draftWith {e : Element} {key value : Value}
    (h : (e.draftWith key value).faults = []) : ∃ name, key = .text name := by
  obtain ⟨other, accepted⟩ := (Draft.exists_check_ok_iff _).mpr h
  obtain ⟨same, -⟩ := (Draft.check_ok_iff _ other).mp accepted
  simp only [draftWith, draft, Draft.mk.injEq, Option.some.injEq] at same
  exact RawProperties.key_of_put same.2.2.2.2.2

theorem setProperty_ok_iff (e : Element) (key value : Value) (other : Element) :
    e.setProperty key value = .ok other ↔ (e.draftWith key value).faults = [] ∧
      ∃ name, key = .text name ∧ other = { e with properties := e.properties.put name value } := by
  have accepted : (e.draftWith key value).check = .ok other ↔
      (e.draftWith key value).faults = [] ∧
        ∃ name, key = .text name ∧
          other = { e with properties := e.properties.put name value } := by
    rw [Draft.check_ok_iff]
    constructor
    · rintro ⟨same, valid⟩
      refine ⟨?_, ?_⟩
      · rw [same]
        exact valid
      · obtain ⟨id', kind', ⟨x', y'⟩, properties'⟩ := other
        simp only [draftWith, draft, Draft.mk.injEq, Value.text.injEq, Option.some.injEq,
          Placement.coords.injEq, Value.num.injEq] at same
        obtain ⟨rfl, kind, ⟨rfl, rfl⟩, -, -, properties⟩ := same
        obtain ⟨name, rfl⟩ := RawProperties.key_of_put properties
        rw [RawProperties.put_ofTable] at properties
        obtain rfl := kind_eq_of_name kind
        obtain rfl := RawProperties.ofTable_inj properties
        exact ⟨name, rfl, rfl⟩
    · rintro ⟨none, name, rfl, rfl⟩
      have same : e.draftWith (.text name) value =
          ({ e with properties := e.properties.put name value } : Element).draft := by
        rw [draftWith, RawProperties.put_ofTable]
        rfl
      refine ⟨same, ?_⟩
      rw [Valid, ← same]
      exact none
  rw [← accepted, setProperty]
  by_cases may : key.canBeKey = true
  · rw [if_pos may, mapError_ok_iff]
    rfl
  · rw [if_neg may]
    constructor
    · intro impossible
      cases impossible
    · intro given
      obtain ⟨-, name, rfl, -⟩ := accepted.mp given
      exact absurd rfl may

theorem move_valid {e other : Element} {p : Placement} (h : e.move p = .ok other) :
    other.Valid := by
  rw [move, mapError_ok_iff, Draft.check_ok_iff] at h
  exact h.2

theorem setProperty_valid {e other : Element} {key value : Value}
    (h : e.setProperty key value = .ok other) : other.Valid := by
  unfold setProperty at h
  split at h
  · rw [mapError_ok_iff, Draft.check_ok_iff] at h
    exact h.2
  · cases h

theorem create_valid {r : Request} {supply : Supply} {e : Element}
    (h : (create r supply).1 = .ok e) : e.Valid := by
  unfold create at h
  split at h
  · cases h
  · cases requested : requestedProperties r.properties with
    | error error =>
      simp only [requested] at h
      cases h
    | ok properties =>
      simp only [requested] at h
      exact ((Draft.check_ok_iff _ e).mp ((mapError_ok_iff _ _ e).mp h)).2

end Element

end RungLogic
