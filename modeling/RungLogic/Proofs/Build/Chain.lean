import RungLogic.Proofs.Build.Laid
import RungLogic.Proofs.Scan.ReadLinks

/-!
The rest of a built network, seen from where its laying has come to: which wires end at the next
piece, and which leave it and the carrier. All wires run forward, so no cycle is ever built.
-/

set_option autoImplicit false
set_option relaxedAutoImplicit false

namespace RungLogic

/-- The pieces `ls`, laid behind `carrier`, are a part of the network, and no other wires end at
their elements or leave them or the carrier. -/
structure Carries (n : Network) (carrier : Option Element) (ls : List Laid) : Prop where
  linked : Linked carrier ls
  nodup : ((carrier.toList ++ laidElements ls).map Element.id).Nodup
  found : ∀ e ∈ carrier.toList ++ laidElements ls, n.element? e.id = some e
  leaving : ∀ e ∈ carrier.toList ++ laidElements ls,
    n.connections.filter (fun w => w.source.element = e.id) =
      (laidWires ls).filter fun w => w.source.element = e.id
  entering : ∀ e ∈ laidElements ls,
    n.connections.filter (fun w => w.target.element = e.id) =
      (laidWires ls).filter fun w => w.target.element = e.id

theorem Network.IsLaid.carries {n : Network} {ls : List Laid} (h : n.IsLaid ls) :
    Carries n none ls := by
  refine ⟨h.linked, h.elements ▸ h.nodup, fun e he => ?_, fun _ _ => ?_, fun _ _ => ?_⟩
  · exact h.coherent.element?_of_mem (h.elements ▸ he)
  · rw [h.connections]
  · rw [h.connections]

theorem carries_laids (p : Program) (supply : Supply) (id : String) :
    Carries ⟨id, laidElements (p.laids supply), laidWires (p.laids supply)⟩ none
      (p.laids supply) := (p.isLaid supply id).carries

variable {n : Network} {carrier : Option Element} {l : Laid} {rest : List Laid}

/-- What the distinctness of all ids says about the next piece. -/
structure Laid.Apart (l : Laid) (carrier : Option Element) (rest : List Laid) : Prop where
  carrier_main : ∀ a ∈ carrier, a.id ≠ l.main.id
  carrier_side : ∀ a ∈ carrier, ∀ s ∈ l.side, a.id ≠ s.id
  side_main : ∀ s ∈ l.side, s.id ≠ l.main.id
  main_rest : ∀ e ∈ laidElements rest, e.id ≠ l.main.id
  side_rest : ∀ s ∈ l.side, ∀ e ∈ laidElements rest, e.id ≠ s.id
  carrier_rest : ∀ a ∈ carrier, ∀ e ∈ laidElements rest, e.id ≠ a.id

theorem Carries.apart (h : Carries n carrier (l :: rest)) : l.Apart carrier rest := by
  have nodup := h.nodup
  have helements : laidElements (l :: rest) = l.side.toList ++ [l.main] ++ laidElements rest := rfl
  rw [helements, List.map_append, List.map_append, List.map_append] at nodup
  obtain ⟨-, later, first⟩ := List.nodup_append.mp nodup
  obtain ⟨piece, -, behind⟩ := List.nodup_append.mp later
  obtain ⟨-, -, inside⟩ := List.nodup_append.mp piece
  have mem : ∀ {o : Option Element} {e : Element}, e ∈ o → e.id ∈ o.toList.map Element.id :=
    fun he => List.mem_map_of_mem (Option.mem_toList.mpr he)
  refine ⟨?_, ?_, ?_, ?_, ?_, ?_⟩
  · intro a ha
    exact first a.id (mem ha) l.main.id (by simp)
  · intro a ha s hs
    exact first a.id (mem ha) s.id (List.mem_append_left _ (List.mem_append_left _ (mem hs)))
  · intro s hs
    exact inside s.id (mem hs) l.main.id (by simp)
  · intro e he
    exact (behind l.main.id (by simp) e.id (List.mem_map_of_mem he)).symm
  · intro s hs e he
    exact (behind s.id (List.mem_append_left _ (mem hs)) e.id (List.mem_map_of_mem he)).symm
  · intro a ha e he
    exact (first a.id (mem ha) e.id (List.mem_append_right _ (List.mem_map_of_mem he))).symm

private theorem filter_source_eq_nil {ls : List Laid} (linked : Linked carrier ls) {id : String}
    (h : ∀ e ∈ carrier.toList ++ laidElements ls, e.id ≠ id) :
    (laidWires ls).filter (fun w => w.source.element = id) = [] := by
  refine List.filter_eq_nil_iff.mpr fun w hw => ?_
  obtain ⟨a, t, hsub, ha, -⟩ := linked.forward hw
  have hne := h a (hsub.subset (by simp))
  simpa [ha] using hne

private theorem filter_target_eq_nil {ls : List Laid} {id : String}
    (h : ∀ e ∈ laidElements ls, e.id ≠ id) :
    (laidWires ls).filter (fun w => w.target.element = id) = [] := by
  refine List.filter_eq_nil_iff.mpr fun w hw => ?_
  obtain ⟨l, hl, htarget⟩ := exists_main_of_mem hw
  have hne := h l.main (List.mem_flatMap.mpr ⟨l, hl, l.main_mem_elements⟩)
  simpa [htarget] using hne

private theorem laidWires_cons (l : Laid) (rest : List Laid) :
    laidWires (l :: rest) = l.wires ++ laidWires rest := rfl

private theorem source_ne {w : Connection} (apart : l.Apart carrier rest)
    (hfeeder : l.feeder = none ∨ l.feeder = carrier) (hw : w ∈ l.wires) {e : Element}
    (he : e = l.main ∨ e ∈ laidElements rest) : w.source.element ≠ e.id := by
  obtain ⟨a, ha, rfl | ⟨s, hs, rfl⟩⟩ := Laid.mem_wires.mp hw
  · have hcarrier : a ∈ carrier := by
      rw [ha] at hfeeder
      exact (hfeeder.resolve_left (Option.some_ne_none _)).symm
    rcases he with rfl | he
    · exact apart.carrier_main a hcarrier
    · exact (apart.carrier_rest a hcarrier e he).symm
  · rcases he with rfl | he
    · exact apart.side_main s hs
    · exact (apart.side_rest s hs e he).symm

private theorem target_eq {w : Connection} (hw : w ∈ l.wires) :
    w.target.element = l.main.id := by
  obtain ⟨a, -, rfl | ⟨s, -, rfl⟩⟩ := Laid.mem_wires.mp hw
  · rfl
  · rfl

theorem mem_carrier {e : Element} (h : e ∈ l.carrier.toList) : e = l.main := by
  unfold Laid.carrier at h
  split at h
  · cases h
  · exact List.mem_singleton.mp h

theorem Carries.tail (h : Carries n carrier (l :: rest)) : Carries n l.carrier rest := by
  have apart := h.apart
  cases h.linked with
  | cons fits hfeeder linked =>
    have hsub : (l.carrier.toList ++ laidElements rest).Sublist
        (carrier.toList ++ laidElements (l :: rest)) :=
      (l.carrier_sublist.append (.refl _)).trans (List.sublist_append_right _ _)
    refine ⟨linked, h.nodup.sublist (hsub.map Element.id), ?_, ?_, ?_⟩
    · intro e he
      exact h.found e (hsub.subset he)
    · intro e he
      have hnone : l.wires.filter (fun w => w.source.element = e.id) = [] := by
        refine List.filter_eq_nil_iff.mpr fun w hw => ?_
        have hne := source_ne apart hfeeder hw ((List.mem_append.mp he).imp_left mem_carrier)
        simpa using hne
      rw [h.leaving e (hsub.subset he), laidWires_cons, List.filter_append, hnone, List.nil_append]
    · intro e he
      have hnone : l.wires.filter (fun w => w.target.element = e.id) = [] := by
        refine List.filter_eq_nil_iff.mpr fun w hw => ?_
        simpa [target_eq hw] using (apart.main_rest e he).symm
      rw [h.entering e (List.mem_append_right _ he), laidWires_cons, List.filter_append, hnone,
        List.nil_append]

theorem Carries.fits (h : Carries n carrier (l :: rest)) : l.Fits := by
  cases h.linked with
  | cons fits _ _ => exact fits

theorem Carries.feeder (h : Carries n carrier (l :: rest)) :
    l.feeder = none ∨ l.feeder = carrier := by
  cases h.linked with
  | cons _ hfeeder _ => exact hfeeder

theorem Carries.found_main (h : Carries n carrier (l :: rest)) :
    n.element? l.main.id = some l.main :=
  h.found l.main (List.mem_append_right _ (List.mem_append_left _ l.main_mem_elements))

theorem Carries.found_side (h : Carries n carrier (l :: rest)) {s : Element} (hs : l.side = some s) :
    n.element? s.id = some s :=
  h.found s (List.mem_append_right _ (List.mem_append_left _ (Laid.side_mem_elements hs)))

theorem Carries.entering_main (h : Carries n carrier (l :: rest)) :
    n.connections.filter (fun w => w.target.element = l.main.id) = l.wires := by
  have hall : l.wires.filter (fun w => w.target.element = l.main.id) = l.wires :=
    List.filter_eq_self.mpr fun w hw => by simpa using target_eq hw
  rw [h.entering l.main (List.mem_append_left _ l.main_mem_elements), laidWires_cons,
    List.filter_append, hall, filter_target_eq_nil h.apart.main_rest, List.append_nil]

theorem Carries.entering_side (h : Carries n carrier (l :: rest)) {s : Element}
    (hs : l.side = some s) : n.connections.filter (fun w => w.target.element = s.id) = [] := by
  have hnone : l.wires.filter (fun w => w.target.element = s.id) = [] := by
    refine List.filter_eq_nil_iff.mpr fun w hw => ?_
    simpa [target_eq hw] using (h.apart.side_main s hs).symm
  rw [h.entering s (List.mem_append_left _ (Laid.side_mem_elements hs)), laidWires_cons,
    List.filter_append, hnone, filter_target_eq_nil (h.apart.side_rest s hs), List.append_nil]

private theorem leaving_rest (h : Carries n carrier (l :: rest)) {id : String}
    (hmain : l.main.id ≠ id) (hrest : ∀ e ∈ laidElements rest, e.id ≠ id) :
    (laidWires rest).filter (fun w => w.source.element = id) = [] := by
  refine filter_source_eq_nil h.tail.linked fun e he => ?_
  rcases List.mem_append.mp he with he | he
  · rw [mem_carrier he]
    exact hmain
  · exact hrest e he

theorem Carries.leaving_carrier (h : Carries n carrier (l :: rest)) {a : Element}
    (ha : carrier = some a) :
    n.connections.filter (fun w => w.source.element = a.id) =
      match l.feeder with
      | some _ => [⟨⟨a.id, a.kind.primaryOutput⟩, ⟨l.main.id, l.main.kind.primaryInput⟩⟩]
      | none => [] := by
  have apart := h.apart
  rw [h.leaving a (by simp [ha]), laidWires_cons, List.filter_append,
    leaving_rest h (apart.carrier_main a ha).symm (apart.carrier_rest a ha), List.append_nil]
  rcases hfeeder : l.feeder with _ | b
  · simp [Laid.wires, hfeeder]
  · have hb : b = a := by
      have heq := h.feeder.resolve_left (by simp [hfeeder])
      rw [hfeeder, ha] at heq
      exact Option.some.inj heq
    have hside : ∀ s ∈ l.side, s.id ≠ a.id := fun s hs => (apart.carrier_side a ha s hs).symm
    rcases hs : l.side with _ | s
    · simp [Laid.wires, hfeeder, hb, hs]
    · simp [Laid.wires, hfeeder, hb, hs, hside s hs]

theorem Carries.leaving_side (h : Carries n carrier (l :: rest)) {s : Element}
    (hs : l.side = some s) :
    n.connections.filter (fun w => w.source.element = s.id) =
      match l.feeder with
      | some _ => [⟨⟨s.id, "out"⟩, ⟨l.main.id, "in2"⟩⟩]
      | none => [] := by
  have apart := h.apart
  rw [h.leaving s (List.mem_append_right _ (List.mem_append_left _ (Laid.side_mem_elements hs))),
    laidWires_cons, List.filter_append,
    leaving_rest h (apart.side_main s hs).symm (apart.side_rest s hs), List.append_nil]
  rcases hfeeder : l.feeder with _ | b
  · simp [Laid.wires, hfeeder]
  · have hb : b.id ≠ s.id := by
      have heq := h.feeder.resolve_left (by simp [hfeeder])
      exact apart.carrier_side b (by rw [← heq, hfeeder]; rfl) s hs
    simp [Laid.wires, hfeeder, hs, hb]

theorem Carries.leaving_coil (h : Carries n carrier (l :: rest)) (hcoil : l.main.kind.isCoil = true) :
    n.connections.filter (fun w => w.source.element = l.main.id) = [] := by
  have hnone : l.wires.filter (fun w => w.source.element = l.main.id) = [] := by
    refine List.filter_eq_nil_iff.mpr fun w hw => ?_
    simpa using source_ne h.apart h.feeder hw (.inl rfl)
  have hcarrier : l.carrier = none := Laid.carrier_eq_none hcoil
  have hrest : (laidWires rest).filter (fun w => w.source.element = l.main.id) = [] := by
    refine filter_source_eq_nil h.tail.linked fun e he => ?_
    rw [hcarrier] at he
    exact h.apart.main_rest e he
  rw [h.leaving l.main (List.mem_append_right _ (List.mem_append_left _ l.main_mem_elements)),
    laidWires_cons, List.filter_append, hnone, hrest]
  rfl

/-- All wires run forward, so what is laid has no cycle. -/
theorem Network.IsLaid.not_reachesCycle {ls : List Laid} (h : n.IsLaid ls) (a : String) :
    ¬ Scan.ReachesCycle n a := by
  have nodup := h.nodup
  have elements := h.elements
  generalize hids : n.elements.map Element.id = ids at nodup
  have order : ids.Pairwise fun a b => ids.idxOf a < ids.idxOf b := by
    refine List.pairwise_iff_getElem.mpr fun i j hi hj hij => ?_
    rw [nodup.idxOf_getElem i hi, nodup.idxOf_getElem j hj]
    exact hij
  refine Scan.not_reachesCycle_of_rank (fun _ => True) (ids.idxOf ·) ?_ trivial
  intro w hw _
  obtain ⟨a, t, hsub, ha, -, ht, -⟩ := h.linked.forward (h.connections ▸ hw)
  have hsub' : [a, t].Sublist n.elements := elements ▸ hsub
  have hlt := order.sublist (hids ▸ hsub'.map Element.id)
  rw [ha, ht]
  simpa using hlt

theorem Program.not_reachesCycle_laids (p : Program) (supply : Supply) (id a : String) :
    ¬ Scan.ReachesCycle ⟨id, laidElements (p.laids supply), laidWires (p.laids supply)⟩ a :=
  (p.isLaid supply id).not_reachesCycle a

end RungLogic
