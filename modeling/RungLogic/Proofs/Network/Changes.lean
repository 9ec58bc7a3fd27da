import RungLogic.Proofs.Network.Coherence
import RungLogic.Proofs.Network.Parts

/-!
Changes of valid networks: an element or a wire more, an element and its wires less, wires less, and
an element in the place of another of its id and kind. For each stands what of the change keeps the
parts of the network together.
-/

set_option autoImplicit false
set_option relaxedAutoImplicit false

namespace RungLogic

namespace Kind

theorem isName_of_mem_inputs {k : Kind} {port : String} (h : port ∈ k.inputs) :
    Text.isName port = true := by
  have all : k.inputs.all Text.isName = true := by cases k <;> decide
  exact List.all_eq_true.mp all port h

theorem isName_of_mem_outputs {k : Kind} {port : String} (h : port ∈ k.outputs) :
    Text.isName port = true := by
  have all : k.outputs.all Text.isName = true := by cases k <;> decide
  exact List.all_eq_true.mp all port h

end Kind

namespace Network

/-- Whether a wire may have that end: the element is there, and the port is an output of it where a
wire begins, an input where it ends. -/
def HasEnd (n : Network) (side : End) (r : PortEnd) : Prop :=
  ∃ e ∈ n.elements, e.id = r.element ∧ r.port ∈ match side with
    | .source => e.outputs
    | .target => e.inputs

def replaced (n : Network) (id : String) (other : Element) : Network :=
  { n with elements := n.elements.map fun e => if e.id = id then other else e }

def without (n : Network) (id : String) : Network :=
  { n with
    elements := n.elements.filter fun e => e.id ≠ id
    connections := n.connections.filter fun c => c.source.element ≠ id ∧ c.target.element ≠ id }

namespace Coherent

variable {n : Network}

theorem without (h : n.Coherent) (id : String) : (n.without id).Coherent := by
  refine ⟨?_, ?_, ?_⟩
  · exact h.nodup.sublist (List.filter_sublist.map Element.id)
  · intro c hc
    obtain ⟨hc, away⟩ := List.mem_filter.mp hc
    obtain ⟨e, he, same, port⟩ := h.source c hc
    have hne : e.id ≠ id := by
      rw [same]
      exact (of_decide_eq_true away).1
    exact ⟨e, List.mem_filter.mpr ⟨he, decide_eq_true hne⟩, same, port⟩
  · intro c hc
    obtain ⟨hc, away⟩ := List.mem_filter.mp hc
    obtain ⟨e, he, same, port⟩ := h.target c hc
    have hne : e.id ≠ id := by
      rw [same]
      exact (of_decide_eq_true away).2
    exact ⟨e, List.mem_filter.mpr ⟨he, decide_eq_true hne⟩, same, port⟩

/-- A coherent network is so with fewer wires. -/
theorem fewer (h : n.Coherent) {cs : List Connection} (sub : ∀ c ∈ cs, c ∈ n.connections) :
    Coherent { n with connections := cs } := by
  refine ⟨h.nodup, ?_, ?_⟩
  · intro c hc
    exact h.source c (sub c hc)
  · intro c hc
    exact h.target c (sub c hc)

theorem append_element_iff (h : n.Coherent) (e : Element) :
    Coherent { n with elements := n.elements ++ [e] } ↔ ∀ d ∈ n.elements, d.id ≠ e.id := by
  constructor
  · intro after d hd same
    have nodup := after.nodup
    rw [List.map_append, List.nodup_append] at nodup
    exact nodup.2.2 d.id (List.mem_map_of_mem hd) e.id (by simp) same
  · intro fresh
    refine ⟨?_, ?_, ?_⟩
    · show (List.map Element.id (n.elements ++ [e])).Nodup
      rw [List.map_append, List.nodup_append]
      refine ⟨h.nodup, by simp, ?_⟩
      intro a ha b hb
      obtain ⟨d, hd, rfl⟩ := List.mem_map.mp ha
      rw [List.map_singleton, List.mem_singleton] at hb
      rw [hb]
      exact fresh d hd
    · intro c hc
      obtain ⟨d, hd, ends⟩ := h.source c hc
      exact ⟨d, List.mem_append_left _ hd, ends⟩
    · intro c hc
      obtain ⟨d, hd, ends⟩ := h.target c hc
      exact ⟨d, List.mem_append_left _ hd, ends⟩

theorem append_connection_iff (h : n.Coherent) (c : Connection) :
    Coherent { n with connections := n.connections ++ [c] } ↔
      n.HasEnd .source c.source ∧ n.HasEnd .target c.target := by
  constructor
  · intro after
    have new : c ∈ n.connections ++ [c] := by simp
    exact ⟨after.source c new, after.target c new⟩
  · rintro ⟨source, target⟩
    refine ⟨h.nodup, ?_, ?_⟩
    · intro d hd
      rcases List.mem_append.mp hd with hd | hd
      · exact h.source d hd
      · rw [List.mem_singleton.mp hd]
        exact source
    · intro d hd
      rcases List.mem_append.mp hd with hd | hd
      · exact h.target d hd
      · rw [List.mem_singleton.mp hd]
        exact target

theorem replaced (h : n.Coherent) {e other : Element} (he : e ∈ n.elements)
    (id : other.id = e.id) (kind : other.kind = e.kind) : (n.replaced e.id other).Coherent := by
  -- Each element has a stand-in of the same id and kind after the replacement.
  have standIn (d : Element) (hd : d ∈ n.elements) :
      ∃ d' ∈ (n.replaced e.id other).elements, d'.id = d.id ∧ d'.kind = d.kind := by
    refine ⟨if d.id = e.id then other else d, List.mem_map.mpr ⟨d, hd, rfl⟩, ?_⟩
    by_cases same : d.id = e.id
    · obtain rfl := h.eq_of_id hd he same
      simp [id, kind]
    · simp [same]
  refine ⟨?_, ?_, ?_⟩
  · have ids : (n.replaced e.id other).elements.map Element.id = n.elements.map Element.id := by
      rw [Network.replaced, List.map_map]
      apply List.map_congr_left
      intro d hd
      by_cases same : d.id = e.id <;> simp [same, id]
    rw [ids]
    exact h.nodup
  · intro c hc
    obtain ⟨d, hd, same, port⟩ := h.source c hc
    obtain ⟨d', hd', id', kind'⟩ := standIn d hd
    exact ⟨d', hd', id'.trans same, by rwa [Element.outputs, kind']⟩
  · intro c hc
    obtain ⟨d, hd, same, port⟩ := h.target c hc
    obtain ⟨d', hd', id', kind'⟩ := standIn d hd
    exact ⟨d', hd', id'.trans same, by rwa [Element.inputs, kind']⟩

end Coherent

variable {n : Network}

theorem Valid.without (h : n.Valid) (id : String) : (n.without id).Valid := by
  refine ⟨h.named, ?_, ?_, (coherent_iff _).mp (h.coherent.without id)⟩
  · intro e he
    exact h.elements e (List.mem_filter.mp he).1
  · intro c hc
    exact h.connections c (List.mem_filter.mp hc).1

theorem Valid.fewer (h : n.Valid) {cs : List Connection} (sub : ∀ c ∈ cs, c ∈ n.connections) :
    Valid { n with connections := cs } :=
  ⟨h.named, h.elements, fun c hc => h.connections c (sub c hc),
    (coherent_iff _).mp (h.coherent.fewer sub)⟩

theorem Valid.replaced (h : n.Valid) {e other : Element} (he : e ∈ n.elements)
    (id : other.id = e.id) (kind : other.kind = e.kind) (valid : other.Valid) :
    (n.replaced e.id other).Valid := by
  refine ⟨h.named, ?_, h.connections, (coherent_iff _).mp (h.coherent.replaced he id kind)⟩
  intro d hd
  obtain ⟨d', hd', rfl⟩ := List.mem_map.mp hd
  by_cases same : d'.id = e.id
  · simpa [same] using valid
  · simpa [same] using h.elements d' hd'

theorem Coherent.without_of_not_mem (h : n.Coherent) {id : String}
    (absent : ∀ e ∈ n.elements, e.id ≠ id) : n.without id = n := by
  have elements : (n.elements.filter fun e => e.id ≠ id) = n.elements := by
    apply List.filter_eq_self.mpr
    intro e he
    exact decide_eq_true (absent e he)
  have connections : (n.connections.filter fun c =>
      c.source.element ≠ id ∧ c.target.element ≠ id) = n.connections := by
    apply List.filter_eq_self.mpr
    intro c hc
    obtain ⟨d, hd, source, -⟩ := h.source c hc
    obtain ⟨e, he, target, -⟩ := h.target c hc
    exact decide_eq_true ⟨source ▸ absent d hd, target ▸ absent e he⟩
  rw [Network.without, elements, connections]

theorem Valid.append_element (h : n.Valid) {e : Element} (he : e.Valid)
    (fresh : ∀ d ∈ n.elements, d.id ≠ e.id) :
    Valid { n with elements := n.elements ++ [e] } := by
  refine ⟨h.named, ?_, h.connections,
    (coherent_iff _).mp ((h.coherent.append_element_iff e).mpr fresh)⟩
  intro d hd
  rcases List.mem_append.mp hd with hd | hd
  · exact h.elements d hd
  · rw [List.mem_singleton.mp hd]
    exact he

theorem Valid.append_connection (h : n.Valid) {c : Connection} (hc : c.Valid)
    (ends : n.HasEnd .source c.source ∧ n.HasEnd .target c.target) :
    Valid { n with connections := n.connections ++ [c] } := by
  refine ⟨h.named, h.elements, ?_,
    (coherent_iff _).mp ((h.coherent.append_connection_iff c).mpr ends)⟩
  intro d hd
  rcases List.mem_append.mp hd with hd | hd
  · exact h.connections d hd
  · rw [List.mem_singleton.mp hd]
    exact hc

private theorem connection_of_ends (elements : ∀ e ∈ n.elements, e.Valid) {c : Connection}
    (source : n.HasEnd .source c.source) (target : n.HasEnd .target c.target) : c.Valid := by
  obtain ⟨d, hd, sid, sport⟩ := source
  obtain ⟨e, he, tid, tport⟩ := target
  intro name hname
  simp only [Connection.parts, List.mem_cons, List.not_mem_nil, or_false] at hname
  rcases hname with rfl | rfl | rfl | rfl
  · rw [← sid]
    exact (elements d hd).named
  · exact Kind.isName_of_mem_outputs sport
  · rw [← tid]
    exact (elements e he).named
  · exact Kind.isName_of_mem_inputs tport

theorem Valid.connection_of_ends (h : n.Valid) {c : Connection} (source : n.HasEnd .source c.source)
    (target : n.HasEnd .target c.target) : c.Valid :=
  Network.connection_of_ends h.elements source target

theorem Coherent.valid (h : n.Coherent) (named : Text.isName n.id = true)
    (elements : ∀ e ∈ n.elements, e.Valid) : n.Valid := by
  refine ⟨named, elements, ?_, (coherent_iff n).mp h⟩
  intro c hc
  exact Network.connection_of_ends elements (h.source c hc) (h.target c hc)

end Network

end RungLogic
