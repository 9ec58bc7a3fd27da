import Mathlib.Data.List.Nodup
import RungLogic.Network

/-!
Coherent networks: what the checks on a network as a whole come to. The ids of its elements are
distinct, and each wire runs from an output of one of them to an input of one of them. So an id
names one element, and each end of a wire is found.
-/

set_option autoImplicit false
set_option relaxedAutoImplicit false

namespace RungLogic.Network

theorem incoming_none (n : Network) (id : String) :
    n.incoming id none = n.connections.filter fun w => w.target.element = id := by
  simp [incoming]

theorem incoming_some (n : Network) (id port : String) :
    n.incoming id (some port) =
      (n.connections.filter fun w => w.target.element = id).filter fun w => w.target.port = port := by
  simp [incoming, List.filter_filter, Bool.and_comm]

theorem outgoing_none (n : Network) (id : String) :
    n.outgoing id none = n.connections.filter fun w => w.source.element = id := by
  simp [outgoing]

theorem outgoing_some (n : Network) (id port : String) :
    n.outgoing id (some port) =
      (n.connections.filter fun w => w.source.element = id).filter fun w => w.source.port = port := by
  simp [outgoing, List.filter_filter, Bool.and_comm]

/-- The elements have distinct ids and the wires run between their ports. -/
structure Coherent (n : Network) : Prop where
  nodup : (n.elements.map Element.id).Nodup
  source : ∀ c ∈ n.connections, ∃ e ∈ n.elements,
    e.id = c.source.element ∧ c.source.port ∈ e.outputs
  target : ∀ c ∈ n.connections, ∃ e ∈ n.elements,
    e.id = c.target.element ∧ c.target.port ∈ e.inputs

private theorem repeatedIds_eq_nil_iff (seen : List String) (es : List Element) :
    repeatedIds seen es = [] ↔ (es.map Element.id).Nodup ∧ ∀ e ∈ es, e.id ∉ seen := by
  induction es generalizing seen with
  | nil => simp [repeatedIds]
  | cons e rest ih =>
    by_cases h : e.id ∈ seen
    · simp [repeatedIds, h]
    · simp only [repeatedIds, List.contains_eq_mem, h, decide_false, Bool.false_eq_true, if_false,
        ih, List.map_cons, List.nodup_cons, List.mem_map, List.mem_cons, not_or]
      constructor
      · rintro ⟨nodup, new⟩
        refine ⟨⟨?_, nodup⟩, ?_⟩
        · rintro ⟨d, hd, same⟩
          exact (new d hd).1 same
        · rintro d (rfl | hd)
          · exact h
          · exact (new d hd).2
      · rintro ⟨⟨fresh, nodup⟩, new⟩
        exact ⟨nodup, fun d hd => ⟨fun same => fresh ⟨d, hd, same⟩, new d (.inr hd)⟩⟩

theorem find?_id_eq_some {es : List Element} (nodup : (es.map Element.id).Nodup) {e : Element}
    (he : e ∈ es) : (es.find? fun d => d.id = e.id) = some e := by
  induction es with
  | nil => simp at he
  | cons d rest ih =>
    rw [List.map_cons, List.nodup_cons] at nodup
    rcases List.mem_cons.mp he with rfl | hrest
    · simp
    · have hne : d.id ≠ e.id := fun same => nodup.1 (same ▸ List.mem_map_of_mem hrest)
      simp [hne, ih nodup.2 hrest]

private def portsAt (e : Element) : End → List String
  | .source => e.outputs
  | .target => e.inputs

private theorem endFaults_eq_nil_iff {es : List Element} (nodup : (es.map Element.id).Nodup)
    (index : Nat) (side : End) (r : PortEnd) :
    endFaults es index side r = [] ↔
      ∃ e ∈ es, e.id = r.element ∧ r.port ∈ portsAt e side := by
  have hrev : (es.reverse.map Element.id).Nodup := by
    rw [List.map_reverse]
    exact List.nodup_reverse.mpr nodup
  constructor
  · intro h
    unfold endFaults at h
    split at h
    · cases h
    · rename_i e found
      have hmem := List.mem_reverse.mp (List.mem_of_find?_eq_some found)
      have hid : e.id = r.element := by simpa using List.find?_some found
      refine ⟨e, hmem, hid, ?_⟩
      cases side <;> simpa [portsAt] using h
  · rintro ⟨e, he, hid, hport⟩
    have found := find?_id_eq_some hrev (List.mem_reverse.mpr he)
    rw [hid] at found
    unfold endFaults
    rw [found]
    cases side <;> simpa [portsAt] using hport

private theorem wireFaults_eq_nil_iff {es : List Element} (nodup : (es.map Element.id).Nodup)
    (index : Nat) (cs : List Connection) :
    wireFaults es index cs = [] ↔ ∀ c ∈ cs,
      (∃ e ∈ es, e.id = c.source.element ∧ c.source.port ∈ e.outputs) ∧
      (∃ e ∈ es, e.id = c.target.element ∧ c.target.port ∈ e.inputs) := by
  induction cs generalizing index with
  | nil => simp [wireFaults]
  | cons c rest ih =>
    simp only [wireFaults, List.append_eq_nil_iff, endFaults_eq_nil_iff nodup, ih, portsAt,
      List.forall_mem_cons]

/-- The checks on the network as a whole pass exactly when the network is coherent. -/
theorem coherent_iff (n : Network) : n.Coherent ↔ bodyFaults n.elements n.connections = [] := by
  simp only [bodyFaults, List.append_eq_nil_iff, List.map_eq_nil_iff, repeatedIds_eq_nil_iff]
  constructor
  · intro h
    refine ⟨⟨h.nodup, by simp⟩, (wireFaults_eq_nil_iff h.nodup 0 _).mpr fun c hc => ?_⟩
    exact ⟨h.source c hc, h.target c hc⟩
  · rintro ⟨⟨nodup, -⟩, wires⟩
    have ends := (wireFaults_eq_nil_iff nodup 0 _).mp wires
    exact ⟨nodup, fun c hc => (ends c hc).1, fun c hc => (ends c hc).2⟩

theorem Valid.coherent {n : Network} (h : n.Valid) : n.Coherent := (coherent_iff n).mpr h.body

theorem mem_of_element? {n : Network} {id : String} {e : Element} (h : n.element? id = some e) :
    e ∈ n.elements := List.mem_of_find?_eq_some h

theorem id_of_element? {n : Network} {id : String} {e : Element} (h : n.element? id = some e) :
    e.id = id := by simpa using List.find?_some h

theorem Coherent.element?_of_mem {n : Network} (h : n.Coherent) {e : Element}
    (he : e ∈ n.elements) : n.element? e.id = some e := find?_id_eq_some h.nodup he

theorem Coherent.eq_of_id {n : Network} (h : n.Coherent) {d e : Element} (hd : d ∈ n.elements)
    (he : e ∈ n.elements) (same : d.id = e.id) : d = e := by
  have found := h.element?_of_mem hd
  rw [same, h.element?_of_mem he] at found
  exact (Option.some.inj found).symm

theorem Coherent.element?_eq_some_iff {n : Network} (h : n.Coherent) {id : String} {e : Element} :
    n.element? id = some e ↔ e ∈ n.elements ∧ e.id = id := by
  constructor
  · intro found
    exact ⟨mem_of_element? found, id_of_element? found⟩
  · rintro ⟨he, rfl⟩
    exact h.element?_of_mem he

/-- A network with the same elements in some order, and the same wires. -/
structure Reordered (n other : Network) : Prop where
  elements : other.elements.Perm n.elements
  connections : other.connections = n.connections

namespace Reordered

variable {n other : Network}

theorem mem_iff (h : Reordered n other) {e : Element} : e ∈ other.elements ↔ e ∈ n.elements :=
  h.elements.mem_iff

theorem coherent (h : Reordered n other) (coherent : n.Coherent) : other.Coherent := by
  refine ⟨?_, ?_, ?_⟩
  · exact (h.elements.map Element.id).nodup_iff.mpr coherent.nodup
  · intro c hc
    obtain ⟨e, he, ends⟩ := coherent.source c (h.connections ▸ hc)
    exact ⟨e, h.mem_iff.mpr he, ends⟩
  · intro c hc
    obtain ⟨e, he, ends⟩ := coherent.target c (h.connections ▸ hc)
    exact ⟨e, h.mem_iff.mpr he, ends⟩

theorem element? (h : Reordered n other) (coherent : n.Coherent) (id : String) :
    other.element? id = n.element? id := by
  ext e
  rw [(h.coherent coherent).element?_eq_some_iff, coherent.element?_eq_some_iff, h.mem_iff]

end Reordered

end RungLogic.Network
