import Mathlib.Data.List.Nodup
import RungLogic.Table

/-!
Names in tables: which names a table has, which it has after an entry, and that entering distinct
names gives the entries as they come.
-/

set_option autoImplicit false
set_option relaxedAutoImplicit false

namespace RungLogic.Table

variable {α : Type}

theorem has_iff {name : String} {t : Table α} : t.has name = true ↔ name ∈ t.names := by
  constructor
  · intro h
    rw [has_eq_isSome] at h
    obtain ⟨v, hv⟩ := Option.isSome_iff_exists.mp h
    exact List.mem_map_of_mem (mem_of_value? hv)
  · intro h
    induction t with
    | nil => cases h
    | cons p rest ih =>
      rcases List.mem_cons.mp h with rfl | h
      · simp [has]
      · simp [has, ih h]

theorem mem_names_put {name : String} {v : α} {t : Table α} {k : String} :
    k ∈ (t.put name v).names ↔ k = name ∨ k ∈ t.names := by
  by_cases has : t.has name = true
  · rw [names_put_of_has has]
    constructor
    · exact .inr
    · rintro (rfl | h)
      · exact has_iff.mp has
      · exact h
  · rw [put_of_not_has (by simpa using has), names, List.map_append, List.mem_append, or_comm]
    simp [names]

theorem nodup_names_put {name : String} {v : α} {t : Table α} (h : t.names.Nodup) :
    (t.put name v).names.Nodup := by
  by_cases has : t.has name = true
  · rwa [names_put_of_has has]
  · have fresh : name ∉ t.names := fun member => has (has_iff.mpr member)
    rw [put_of_not_has (by simpa using has), names, List.map_append, List.map_singleton]
    refine List.nodup_append.mpr ⟨h, List.nodup_singleton name, ?_⟩
    intro a ha b hb same
    rw [same, List.mem_singleton.mp hb] at ha
    exact fresh ha

theorem value?_of_mem {name : String} {v : α} {t : Table α} (nodup : t.names.Nodup)
    (h : (name, v) ∈ t) : t.value? name = some v := by
  induction t with
  | nil => cases h
  | cons p rest ih =>
    obtain ⟨fresh, nodup⟩ := List.nodup_cons.mp nodup
    rw [value?]
    rcases List.mem_cons.mp h with rfl | h
    · exact if_pos rfl
    · rw [if_neg fun same : p.1 = name => fresh (same ▸ List.mem_map_of_mem h), ih nodup h]

theorem put_of_value? {name : String} {v : α} {t : Table α} (h : t.value? name = some v) :
    t.put name v = t := by
  induction t with
  | nil => cases h
  | cons p rest ih =>
    obtain ⟨k, w⟩ := p
    rw [value?] at h
    rw [put]
    by_cases same : k = name
    · rw [if_pos same] at h ⊢
      rw [Option.some.inj h]
    · rw [if_neg same] at h ⊢
      rw [ih h]

theorem put_put (name : String) (v w : α) (t : Table α) : (t.put name v).put name w = t.put name w := by
  induction t with
  | nil => simp [put]
  | cons p rest ih =>
    obtain ⟨k, u⟩ := p
    by_cases same : k = name <;> simp [put, same, ih]

theorem put_put_perm {name other : String} (apart : name ≠ other) (v w : α) (t : Table α) :
    ((t.put name v).put other w).Perm ((t.put other w).put name v) := by
  induction t with
  | nil =>
    simp only [put, if_neg apart, if_neg apart.symm]
    exact List.Perm.swap ..
  | cons p rest ih =>
    obtain ⟨k, u⟩ := p
    by_cases first : k = name
    · simp [put, first, apart]
    · by_cases second : k = other
      · simp [put, second, apart.symm]
      · simpa [put, first, second] using ih

theorem ofPairs_eq {entries : Table α} (nodup : entries.names.Nodup) :
    ofPairs entries = entries := by
  have entered (t rest : Table α) (h : (names (t ++ rest)).Nodup) :
      rest.foldl (fun t p => put p.1 p.2 t) t = t ++ rest := by
    induction rest generalizing t with
    | nil => simp
    | cons p rest ih =>
      have fresh : has p.1 t = false := by
        rw [Bool.eq_false_iff, ne_eq, has_iff]
        intro member
        rw [names, List.map_append, List.nodup_append] at h
        exact h.2.2 p.1 member p.1 (by simp) rfl
      rw [List.foldl_cons, put_of_not_has fresh, ih]
      · simp
      · simpa using h
  simpa [ofPairs] using entered [] entries (by simpa using nodup)

end RungLogic.Table
