import RungLogic.Proofs.Build.Variants

/-!
Matching pieces. Two networks whose pieces compute the same one by one, and are fed at the same places,
have the same wires under other ids: they are twins.
-/

set_option autoImplicit false
set_option relaxedAutoImplicit false

namespace RungLogic

/-- Pieces of elements that compute the same, both fed or both not. -/
structure Laid.Match (l l' : Laid) : Prop where
  main : l.main.Twin l'.main
  side : Option.Rel Element.Twin l.side l'.side
  feeder : l'.feeder.isSome = l.feeder.isSome

private theorem exists_rename {xs ys : List String} (nodup : xs.Nodup) (length : ys.length = xs.length) :
    ∃ rename : String → String, ys = xs.map rename := by
  refine ⟨fun x => ys.getD (xs.idxOf x) "", List.ext_getElem (by simp [length]) fun i hi hi' => ?_⟩
  have hx : i < xs.length := length ▸ hi
  rw [List.getElem_map, nodup.idxOf_getElem i hx, List.getD_eq_getElem?_getD,
    List.getElem?_eq_getElem hi, Option.getD_some]

section Matches

variable {rename : String → String} {carrier carrier' : Option Element} {l l' : Laid}
  {ls ls' : List Laid}

def Element.Renamed (rename : String → String) (e d : Element) : Prop :=
  d.kind = e.kind ∧ d.id = rename e.id

private theorem Laid.Match.elements (h : l.Match l') :
    List.Forall₂ Element.Twin l.elements l'.elements := by
  have side := h.side
  unfold Laid.elements
  rcases hs : l.side with _ | s <;> rcases hs' : l'.side with _ | s' <;> rw [hs, hs'] at side <;>
    cases side
  · exact .cons h.main .nil
  · rename_i twin
    exact .cons twin (.cons h.main .nil)

private theorem twin_elements (pairs : List.Forall₂ Laid.Match ls ls') :
    List.Forall₂ Element.Twin (laidElements ls) (laidElements ls') := by
  induction pairs with
  | nil => exact .nil
  | cons head _ ih => exact List.rel_append head.elements ih

private theorem Laid.Match.wires (h : l.Match l')
    (feeders : ∀ a ∈ l.feeder, ∀ b ∈ l'.feeder, a.Renamed rename b)
    (ids : l'.elements.map Element.id = (l.elements.map Element.id).map rename) :
    l'.wires = l.wires.map (Connection.renamed rename) := by
  have isSome := h.feeder
  have side := h.side
  have kind := h.main.kind
  rcases hfeeder : l.feeder with _ | a <;> rcases hfeeder' : l'.feeder with _ | b <;>
    rw [hfeeder, hfeeder'] at isSome
  · simp [Laid.wires, hfeeder, hfeeder']
  · cases isSome
  · cases isSome
  · obtain ⟨feederKind, feederId⟩ := feeders a hfeeder b hfeeder'
    rcases hs : l.side with _ | s <;> rcases hs' : l'.side with _ | s' <;> rw [hs, hs'] at side <;>
      cases side
    · have main : l'.main.id = rename l.main.id := by
        simpa [Laid.elements, hs, hs'] using ids
      simp [Laid.wires, hfeeder, hfeeder', hs, hs', Connection.renamed, PortEnd.renamed, kind, main,
        feederKind, feederId]
    · obtain ⟨side, main⟩ : s'.id = rename s.id ∧ l'.main.id = rename l.main.id := by
        simpa [Laid.elements, hs, hs'] using ids
      simp [Laid.wires, hfeeder, hfeeder', hs, hs', Connection.renamed, PortEnd.renamed, kind, main,
        side, feederKind, feederId]

private theorem Linked.renamed_wires (linked : Linked carrier ls) (linked' : Linked carrier' ls')
    (pairs : List.Forall₂ Laid.Match ls ls')
    (carriers : ∀ a ∈ carrier, ∀ b ∈ carrier', a.Renamed rename b)
    (ids : (laidElements ls').map Element.id = ((laidElements ls).map Element.id).map rename) :
    laidWires ls' = (laidWires ls).map (Connection.renamed rename) := by
  induction pairs generalizing carrier carrier' with
  | nil => rfl
  | @cons l l' rest rest' head tail ih =>
    -- Pieces that match have as many elements, so the ids are split where the pieces are.
    have split : l'.elements.map Element.id = (l.elements.map Element.id).map rename ∧
        (laidElements rest').map Element.id = ((laidElements rest).map Element.id).map rename := by
      have whole := ids
      simp only [laidElements, List.flatMap_cons, List.map_append] at whole
      exact List.append_inj whole (by simp [head.elements.length_eq])
    have main : l'.main.id = rename l.main.id := by
      have last := congrArg List.getLast? split.1
      simpa [Laid.elements] using last
    cases linked with
    | cons _ feeder linked =>
      cases linked' with
      | cons _ feeder' linked' =>
        have feeders : ∀ a ∈ l.feeder, ∀ b ∈ l'.feeder, a.Renamed rename b := by
          intro a ha b hb
          have hcarrier := feeder.resolve_left (by simp [Option.mem_def.mp ha])
          have hcarrier' := feeder'.resolve_left (by simp [Option.mem_def.mp hb])
          exact carriers a (hcarrier ▸ ha) b (hcarrier' ▸ hb)
        have next : ∀ a ∈ l.carrier, ∀ b ∈ l'.carrier, a.Renamed rename b := by
          intro a ha b hb
          obtain rfl := mem_carrier (Option.mem_toList.mpr ha)
          obtain rfl := mem_carrier (Option.mem_toList.mpr hb)
          exact ⟨head.main.kind, main⟩
        have rest := ih linked linked' next split.2
        rw [laidWires, List.flatMap_cons, laidWires, List.flatMap_cons, List.map_append,
          head.wires feeders split.1]
        exact congrArg _ rest

private theorem twins_renamed {es ds : List Element} (twins : List.Forall₂ Element.Twin es ds)
    (ids : ds.map Element.id = (es.map Element.id).map rename) :
    List.Forall₂ (fun e d => e.Twin d ∧ d.id = rename e.id) es ds := by
  induction twins with
  | nil => exact .nil
  | cons twin _ ih =>
    obtain ⟨id, rest⟩ := List.cons.inj ids
    exact .cons ⟨twin, id⟩ (ih rest)

/-- Networks of matching pieces are twins. -/
theorem exists_twins {n n' : Network} (laid : n.IsLaid ls) (laid' : n'.IsLaid ls')
    (pairs : List.Forall₂ Laid.Match ls ls') : ∃ rename, n.Twins rename n' := by
  have twins := twin_elements pairs
  obtain ⟨rename, ids⟩ := @exists_rename _ (n'.elements.map Element.id) laid.nodup
    (by rw [laid.elements, laid'.elements, List.length_map, List.length_map, twins.length_eq])
  refine ⟨rename, twins_renamed ?_ ids, ?_⟩
  · rwa [laid.elements, laid'.elements]
  · rw [laid.elements, laid'.elements] at ids
    rw [laid'.connections, laid.connections]
    exact laid.linked.renamed_wires laid'.linked pairs (fun a ha => by cases ha) ids

end Matches

end RungLogic
