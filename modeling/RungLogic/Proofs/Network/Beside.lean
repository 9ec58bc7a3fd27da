import RungLogic.Proofs.Network.Changes

/-!
Networks put together into one: the elements of the one and then those of the other, and the wires of
both. Where no id stands in both, the whole is coherent when its parts are, in whatever way the wires of
the one come between those of the other.
-/

set_option autoImplicit false
set_option relaxedAutoImplicit false

namespace RungLogic

/-- A list that has the members of two lists, each in the order of its own list. -/
inductive Interleaved {α : Type} : List α → List α → List α → Prop
  | nil : Interleaved [] [] []
  | left {a : α} {xs ys zs : List α} : Interleaved xs ys zs → Interleaved (a :: xs) ys (a :: zs)
  | right {a : α} {xs ys zs : List α} : Interleaved xs ys zs → Interleaved xs (a :: ys) (a :: zs)

namespace Interleaved

variable {α : Type} {xs ys zs : List α}

theorem swap (h : Interleaved xs ys zs) : Interleaved ys xs zs := by
  induction h with
  | nil => exact .nil
  | left _ ih => exact .right ih
  | right _ ih => exact .left ih

private theorem mem_iff (h : Interleaved xs ys zs) {a : α} : a ∈ zs ↔ a ∈ xs ∨ a ∈ ys := by
  induction h with
  | nil => simp
  | left _ ih => rw [List.mem_cons, List.mem_cons, ih, or_assoc]
  | right _ ih => rw [List.mem_cons, List.mem_cons, ih, or_left_comm]

private theorem append (xs ys : List α) : Interleaved xs ys (xs ++ ys) := by
  induction xs with
  | nil =>
    induction ys with
    | nil => exact .nil
    | cons _ _ ih => exact .right ih
  | cons _ _ ih => exact .left ih

theorem filter_left (h : Interleaved xs ys zs) {p : α → Bool} (others : ∀ a ∈ ys, p a = false) :
    zs.filter p = xs.filter p := by
  induction h with
  | nil => rfl
  | left _ ih => rw [List.filter_cons, List.filter_cons, ih others]
  | right _ ih =>
    rw [List.filter_cons, others _ List.mem_cons_self, if_neg Bool.false_ne_true]
    exact ih fun a ha => others a (List.mem_cons_of_mem _ ha)

end Interleaved

namespace Network

/-- The elements and the wires of one network, and then those of another one. -/
def beside (n m : Network) (name : String) : Network :=
  ⟨name, n.elements ++ m.elements, n.connections ++ m.connections⟩

/-- Networks without an id in common. -/
def Apart (n m : Network) : Prop := ∀ d ∈ n.elements, ∀ e ∈ m.elements, d.id ≠ e.id

instance (n m : Network) : Decidable (n.Apart m) :=
  inferInstanceAs (Decidable (∀ d ∈ n.elements, ∀ e ∈ m.elements, d.id ≠ e.id))

/-- A network that has the elements of one network and then those of another, and the wires of both,
each side's in their order. -/
structure Merges (n m w : Network) : Prop where
  elements : w.elements = n.elements ++ m.elements
  connections : Interleaved n.connections m.connections w.connections

variable {n m w : Network}

private theorem merges_beside (n m : Network) (name : String) : n.Merges m (n.beside m name) :=
  ⟨rfl, .append _ _⟩

private theorem Merges.coherent (h : n.Merges m w) (hn : n.Coherent) (hm : m.Coherent) (apart : n.Apart m) :
    w.Coherent := by
  refine ⟨?_, fun c hc => ?_, fun c hc => ?_⟩
  · rw [h.elements, List.map_append]
    refine List.nodup_append.mpr ⟨hn.nodup, hm.nodup, fun a ha b hb => ?_⟩
    obtain ⟨d, hd, rfl⟩ := List.mem_map.mp ha
    obtain ⟨e, he, rfl⟩ := List.mem_map.mp hb
    exact apart d hd e he
  · rw [h.elements]
    rcases h.connections.mem_iff.mp hc with hc | hc
    · obtain ⟨e, he, ends⟩ := hn.source c hc
      exact ⟨e, List.mem_append_left _ he, ends⟩
    · obtain ⟨e, he, ends⟩ := hm.source c hc
      exact ⟨e, List.mem_append_right _ he, ends⟩
  · rw [h.elements]
    rcases h.connections.mem_iff.mp hc with hc | hc
    · obtain ⟨e, he, ends⟩ := hn.target c hc
      exact ⟨e, List.mem_append_left _ he, ends⟩
    · obtain ⟨e, he, ends⟩ := hm.target c hc
      exact ⟨e, List.mem_append_right _ he, ends⟩

theorem Merges.valid (h : n.Merges m w) (hn : n.Valid) (hm : m.Valid) (apart : n.Apart m)
    (named : Text.isName w.id = true) : w.Valid := by
  refine (h.coherent hn.coherent hm.coherent apart).valid named fun e he => ?_
  rw [h.elements] at he
  rcases List.mem_append.mp he with he | he
  · exact hn.elements e he
  · exact hm.elements e he

theorem Valid.beside (hn : n.Valid) (hm : m.Valid) (apart : n.Apart m) {name : String}
    (named : Text.isName name = true) : (n.beside m name).Valid :=
  (merges_beside n m name).valid hn hm apart named

theorem element?_eq_none {id : String} (h : ∀ e ∈ n.elements, e.id ≠ id) :
    n.element? id = none := List.find?_eq_none.mpr fun e he => by simpa using h e he

theorem Merges.element? (h : n.Merges m w) (id : String) :
    w.element? id = (n.element? id).or (m.element? id) := by
  simp only [Network.element?, h.elements, List.find?_append]

theorem element?_beside (n m : Network) (name id : String) :
    (n.beside m name).element? id = (n.element? id).or (m.element? id) :=
  (merges_beside n m name).element? id

end Network

end RungLogic
