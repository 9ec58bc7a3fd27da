/-!
A table maps names to values and remembers the order in which the names first came. Putting a value
under a name that is there replaces the value where it stands; a new name goes to the end.
-/

set_option autoImplicit false
set_option relaxedAutoImplicit false

namespace RungLogic

/-- Entries in the order in which their names first came. -/
abbrev Table (α : Type) := List (String × α)

namespace Table

variable {α : Type}

def value? (name : String) : Table α → Option α
  | [] => none
  | (k, v) :: rest => if k = name then some v else value? name rest

def has (name : String) : Table α → Bool
  | [] => false
  | (k, _) :: rest => k = name || has name rest

/-- Replaces the value where the name stands, and appends a new name at the end. -/
def put (name : String) (value : α) : Table α → Table α
  | [] => [(name, value)]
  | (k, v) :: rest => if k = name then (k, value) :: rest else (k, v) :: put name value rest

def names (t : Table α) : List String := t.map Prod.fst

/-- Enters the pairs one after the other, so that a repeated name keeps its place and its last
value. -/
def ofPairs (pairs : List (String × α)) : Table α :=
  pairs.foldl (fun t p => t.put p.1 p.2) []

theorem has_eq_isSome (name : String) (t : Table α) : t.has name = (t.value? name).isSome := by
  induction t with
  | nil => rfl
  | cons p rest ih =>
    obtain ⟨k, v⟩ := p
    by_cases h : k = name <;> simp [has, value?, h, ih]

theorem value?_put_self (name : String) (v : α) (t : Table α) :
    (t.put name v).value? name = some v := by
  induction t with
  | nil => simp [put, value?]
  | cons p rest ih =>
    obtain ⟨k, w⟩ := p
    by_cases h : k = name <;> simp [put, value?, h, ih]

theorem value?_put_of_ne {name other : String} (h : other ≠ name) (v : α) (t : Table α) :
    (t.put name v).value? other = t.value? other := by
  induction t with
  | nil => simp [put, value?, h.symm]
  | cons p rest ih =>
    obtain ⟨k, w⟩ := p
    by_cases hk : k = name
    · subst hk
      simp [put, value?, h.symm]
    · by_cases ho : k = other
      · subst ho
        simp [put, value?, hk]
      · simp [put, value?, hk, ho, ih]

theorem value?_put (name other : String) (v : α) (t : Table α) :
    (t.put name v).value? other = if name = other then some v else t.value? other := by
  by_cases h : name = other
  · rw [if_pos h, ← h, value?_put_self]
  · rw [if_neg h, value?_put_of_ne (Ne.symm h)]

theorem names_put_of_has {name : String} {t : Table α} (h : t.has name = true) (v : α) :
    (t.put name v).names = t.names := by
  induction t with
  | nil => simp [has] at h
  | cons p rest ih =>
    obtain ⟨k, w⟩ := p
    by_cases hk : k = name
    · simp [put, names, hk]
    · have : has name rest = true := by simpa [has, hk] using h
      simpa [put, names, hk] using ih this

theorem put_of_not_has {name : String} {t : Table α} (h : t.has name = false) (v : α) :
    t.put name v = t ++ [(name, v)] := by
  induction t with
  | nil => rfl
  | cons p rest ih =>
    obtain ⟨k, w⟩ := p
    have hk : k ≠ name := fun e => by simp [has, e] at h
    have hr : has name rest = false := by simpa [has, hk] using h
    simp [put, hk, ih hr]

theorem mem_put {name : String} {v : α} {t : Table α} {p : String × α}
    (h : p ∈ t.put name v) : p = (name, v) ∨ p ∈ t := by
  induction t with
  | nil => exact .inl (by simpa [put] using h)
  | cons q rest ih =>
    rw [put] at h
    split at h
    · rename_i same
      rcases List.mem_cons.mp h with rfl | h
      · exact .inl (by rw [same])
      · exact .inr (List.mem_cons_of_mem _ h)
    · rcases List.mem_cons.mp h with rfl | h
      · exact .inr List.mem_cons_self
      · rcases ih h with rfl | h
        · exact .inl rfl
        · exact .inr (List.mem_cons_of_mem _ h)

theorem mem_of_value? {name : String} {v : α} {t : Table α}
    (h : t.value? name = some v) : (name, v) ∈ t := by
  induction t with
  | nil => cases h
  | cons q rest ih =>
    rw [value?] at h
    split at h
    · rename_i same
      obtain rfl := Option.some.inj h
      rw [← same]
      exact List.mem_cons_self
    · exact List.mem_cons_of_mem _ (ih h)

end Table

end RungLogic
