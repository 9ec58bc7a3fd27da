import RungLogic.Proofs.Build.Chain
import RungLogic.Proofs.Scan.Twins

/-!
Variants of a built network: other ids, other positions and other properties, with the same wires. A
variant consists of the same pieces, laid one after the other.
-/

set_option autoImplicit false
set_option relaxedAutoImplicit false

namespace RungLogic

/-- An element of the same kind under another id, at any place and with any properties. -/
structure Element.Variant (rename : String → String) (e d : Element) : Prop where
  id : d.id = rename e.id
  kind : d.kind = e.kind

/-- A network whose elements are variants one by one, with the same wires. -/
structure Network.Variant (rename : String → String) (n n' : Network) : Prop where
  elements : List.Forall₂ (Element.Variant rename) n.elements n'.elements
  connections : n'.connections = n.connections.map (Connection.renamed rename)

/-- The element of the network that has the id which another is renamed to. -/
def Network.varied (n : Network) (rename : String → String) (e : Element) : Element :=
  let found := (n.element? (rename e.id)).getD e
  ⟨rename e.id, e.kind, found.position, found.properties⟩

namespace Network.Variant

variable {rename : String → String} {m n : Network}

private theorem varied_eq {e d : Element} (coherent : n.Coherent) (hd : d ∈ n.elements)
    (variant : e.Variant rename d) : n.varied rename e = d := by
  have found : n.element? (rename e.id) = some d := by
    rw [← variant.id]
    exact coherent.element?_of_mem hd
  rw [varied, found, ← variant.id, ← variant.kind]
  rfl

private theorem map_varied (coherent : n.Coherent) {es ds : List Element}
    (pairs : List.Forall₂ (Element.Variant rename) es ds) (sub : ∀ d ∈ ds, d ∈ n.elements) :
    ds = es.map (n.varied rename) := by
  induction pairs with
  | nil => rfl
  | cons head _ ih =>
    obtain ⟨first, rest⟩ := List.forall_mem_cons.mp sub
    rw [List.map_cons, varied_eq coherent first head, ← ih rest]

theorem elements_eq (h : m.Variant rename n) (coherent : n.Coherent) :
    n.elements = m.elements.map (n.varied rename) :=
  map_varied coherent h.elements fun _ hd => hd

end Network.Variant

namespace Laid

variable {f : Element → Element} {rename : String → String} {l : Laid}

/-- The piece of the elements that the elements of a piece are turned into. -/
def map (f : Element → Element) (l : Laid) : Laid := ⟨f l.main, l.side.map f, l.feeder.map f⟩

private theorem elements_map (f : Element → Element) (l : Laid) :
    (l.map f).elements = l.elements.map f := by
  rcases hs : l.side with _ | s <;> simp [map, elements, hs]

private theorem wires_map (ids : ∀ e, (f e).id = rename e.id) (kinds : ∀ e, (f e).kind = e.kind)
    (l : Laid) :
    (l.map f).wires = l.wires.map (Connection.renamed rename) := by
  rcases hfeeder : l.feeder with _ | a
  · simp [map, wires, hfeeder]
  · rcases hs : l.side with _ | s <;>
      simp [map, wires, hfeeder, hs, ids, kinds, Connection.renamed, PortEnd.renamed]

theorem carrier_map (kinds : ∀ e, (f e).kind = e.kind) (l : Laid) :
    (l.map f).carrier = l.carrier.map f := by
  rcases hcoil : l.main.kind.isCoil with _ | _ <;> simp [map, carrier, kinds, hcoil]

private theorem Fits.map (kinds : ∀ e, (f e).kind = e.kind) (fits : l.Fits) : (l.map f).Fits := by
  refine ⟨?_, ?_, ?_, ?_⟩
  · intro s hs
    obtain ⟨t, ht, rfl⟩ := Option.map_eq_some_iff.mp hs
    have roles := fits.side t ht
    rwa [← kinds t, ← kinds l.main] at roles
  · intro hcontact
    have none := fits.contact ((kinds l.main) ▸ hcontact)
    simp [Laid.map, none]
  · intro hgate
    have some := fits.gate ((kinds l.main) ▸ hgate)
    simp [Laid.map, some]
  · have counterpart := fits.counterpart
    rwa [← kinds l.main] at counterpart

end Laid

section Pieces

variable {f : Element → Element} {rename : String → String}

theorem laidElements_map (f : Element → Element) (ls : List Laid) :
    laidElements (ls.map (Laid.map f)) = (laidElements ls).map f := by
  simp only [laidElements, List.flatMap_map, List.map_flatMap, Laid.elements_map]

theorem laidWires_map (ids : ∀ e, (f e).id = rename e.id) (kinds : ∀ e, (f e).kind = e.kind)
    (ls : List Laid) :
    laidWires (ls.map (Laid.map f)) = (laidWires ls).map (Connection.renamed rename) := by
  simp only [laidWires, List.flatMap_map, List.map_flatMap, Laid.wires_map ids kinds]

theorem Linked.map (kinds : ∀ e, (f e).kind = e.kind) {carrier : Option Element} {ls : List Laid}
    (h : Linked carrier ls) : Linked (carrier.map f) (ls.map (Laid.map f)) := by
  induction h with
  | nil carrier => exact .nil _
  | @cons carrier l rest fits feeder _ ih =>
    refine .cons (fits.map kinds) ?_ ?_
    · rcases feeder with none | same
      · exact .inl (by simp [Laid.map, none])
      · exact .inr (by simp [Laid.map, same])
    · rwa [Laid.carrier_map kinds]

theorem Network.Variant.isLaid {m n : Network} {ls : List Laid} (h : m.Variant rename n)
    (coherent : n.Coherent) (laid : m.IsLaid ls) :
    n.IsLaid (ls.map (Laid.map (n.varied rename))) := by
  have ids : ∀ e, (n.varied rename e).id = rename e.id := fun _ => rfl
  have kinds : ∀ e, (n.varied rename e).kind = e.kind := fun _ => rfl
  refine ⟨?_, ?_, laid.linked.map kinds, coherent.1⟩
  · rw [laidElements_map, ← laid.elements, h.elements_eq coherent]
  · rw [laidWires_map ids kinds, ← laid.connections, h.connections]

end Pieces

end RungLogic
