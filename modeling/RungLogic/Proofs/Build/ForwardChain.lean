import Mathlib.Data.List.NodupEquivFin
import RungLogic.Proofs.Build.Documents
import RungLogic.Proofs.Build.Variants
import RungLogic.Proofs.Simulation.Reached

/-!
Built networks are chains that run forward. Each element is wired to one that is laid later, by one wire
at most; beside the primary ports only the second sides of gates are wired, to contacts that nothing
feeds. So a built network passes all checks, and no scan finds a cycle in it. This does not depend on
the ids, as long as they are names and distinct.
-/

set_option autoImplicit false
set_option relaxedAutoImplicit false

namespace RungLogic

namespace Network

/-- What is wired to an element of a chain: one wire at most leaves it, from its primary output, and none
if it is a coil; one at most ends at each port, and only at the primary input, or from a contact that
nothing feeds at the second side of a gate. -/
structure ChainedAt (n : Network) (e : Element) : Prop where
  fanOut : (n.outgoing e.id none).length ≤ 1
  source : ∀ c ∈ n.outgoing e.id none, c.source.port = e.kind.primaryOutput
  coil : e.kind = .coil ∨ e.kind = .coilNegated → n.outgoing e.id none = []
  fanIn : ∀ port, (n.incoming e.id (some port)).length ≤ 1
  target : ∀ c ∈ n.incoming e.id none, c.target.port = e.kind.primaryInput ∨
    (c.target.port = "in2" ∧ (e.kind = .and ∨ e.kind = .or) ∧
      ∃ s ∈ n.elements, s.id = c.source.element ∧
        (s.kind = .contact ∨ s.kind = .contactNegated) ∧ n.incoming s.id none = [])

/-- Networks in which each wire runs to a later element and all elements are chained. -/
structure IsForwardChain (n : Network) : Prop where
  forward : ∀ c ∈ n.connections, ∃ i j : Nat, ∃ d e : Element, i < j ∧ n.elements[i]? = some d ∧
    n.elements[j]? = some e ∧ c.source.element = d.id ∧ c.target.element = e.id
  chained : ∀ e ∈ n.elements, n.ChainedAt e

/-- No scan of the network reports a cycle, whatever the context is and whatever went before. -/
def NeverCycles (n : Network) : Prop :=
  ∀ s : Simulation, s.scanner.network = n → ∀ path, s.cycle.result ≠ .error (.cycle path)

end Network

section Laid

variable {n : Network} {carrier : Option Element} {ls : List Laid}

private theorem Kind.primaryOutput_of_isContact {k : Kind} (h : k.isContact = true) :
    k.primaryOutput = "out" := by
  rcases isContact_iff.mp h with rfl | rfl <;> rfl

/-- One wire at most leaves an element that has been laid, and none leaves a coil. The induction is on
the pieces; the carrier is left by the wires of the next one. -/
private theorem Carries.outgoing (h : Carries n carrier ls) (known : ∀ a ∈ carrier, a.kind.isCoil = false)
    {e : Element} (he : e ∈ carrier.toList ++ laidElements ls) :
    n.outgoing e.id none = [] ∨ (e.kind.isCoil = false ∧
      ∃ target, n.outgoing e.id none = [⟨⟨e.id, e.kind.primaryOutput⟩, target⟩]) := by
  induction ls generalizing carrier with
  | nil =>
    left
    rw [Network.outgoing_none, h.leaving e he]
    rfl
  | cons l rest ih =>
    have later (he : e ∈ l.carrier.toList ++ laidElements rest) := by
      refine ih h.tail (fun a ha => ?_) he
      rcases hcoil : l.main.kind.isCoil with _ | _
      · rw [mem_carrier (Option.mem_toList.mpr ha)]
        exact hcoil
      · rw [Laid.carrier_eq_none hcoil] at ha
        cases ha
    rw [Network.outgoing_none] at later ⊢
    rcases List.mem_append.mp he with he | he
    · obtain rfl : carrier = some e := Option.mem_toList.mp he
      rw [h.leaving_carrier rfl]
      rcases l.feeder with _ | a
      · exact .inl rfl
      · exact .inr ⟨known e rfl, _, rfl⟩
    · rcases List.mem_append.mp he with he | he
      · rcases List.mem_append.mp he with hs | he
        · have hs : l.side = some e := Option.mem_toList.mp hs
          obtain ⟨contact, -⟩ := h.fits.side e hs
          have coil : e.kind.isCoil = false := by
            rcases Kind.isContact_iff.mp contact with kind | kind <;> rw [kind] <;> rfl
          rw [h.leaving_side hs, Kind.primaryOutput_of_isContact contact]
          rcases l.feeder with _ | a
          · exact .inl rfl
          · exact .inr ⟨coil, _, rfl⟩
        · obtain rfl := List.mem_singleton.mp he
          by_cases hcoil : l.main.kind.isCoil = true
          · exact .inl (h.leaving_coil hcoil)
          · have carries := Laid.carrier_eq_some (Bool.eq_false_iff.mpr hcoil)
            exact later (List.mem_append_left _ (by simp [carries]))
      · exact later (List.mem_append_right _ he)

/-- What ends at an element that has been laid: nothing, one wire at its primary input, or that and a
wire from a contact that nothing feeds at the second side of a gate. -/
inductive Network.Entered (n : Network) (e : Element) : Prop
  | free : n.incoming e.id none = [] → Entered n e
  | fed {source : PortEnd} :
      n.incoming e.id none = [⟨source, ⟨e.id, e.kind.primaryInput⟩⟩] → Entered n e
  | joined {source : PortEnd} {s : Element} : e.kind.isGate = true → s ∈ n.elements →
      s.kind.isContact = true → n.incoming s.id none = [] →
      n.incoming e.id none =
        [⟨source, ⟨e.id, e.kind.primaryInput⟩⟩, ⟨⟨s.id, "out"⟩, ⟨e.id, "in2"⟩⟩] → Entered n e

private theorem Carries.entered (h : Carries n carrier ls) {e : Element} (he : e ∈ laidElements ls) :
    n.Entered e := by
  induction ls generalizing carrier with
  | nil => cases he
  | cons l rest ih =>
    rcases List.mem_append.mp he with he | he
    · rcases List.mem_append.mp he with hs | he
      · have hs : l.side = some e := Option.mem_toList.mp hs
        exact .free ((n.incoming_none e.id).trans (h.entering_side hs))
      · obtain rfl := List.mem_singleton.mp he
        have wires := (n.incoming_none l.main.id).trans h.entering_main
        rcases hfeeder : l.feeder with _ | a
        · exact .free (by rw [wires, Laid.wires, hfeeder])
        · rcases hs : l.side with _ | s
          · rw [Laid.wires, hfeeder, hs] at wires
            exact .fed wires
          · obtain ⟨contact, gate⟩ := h.fits.side s hs
            have unfed := (n.incoming_none s.id).trans (h.entering_side hs)
            rw [Laid.wires, hfeeder, hs] at wires
            exact .joined gate (Network.mem_of_element? (h.found_side hs)) contact unfed wires
    · exact ih h.tail he

private theorem Network.Entered.fanIn {e : Element} (h : n.Entered e) (port : String) :
    (n.incoming e.id (some port)).length ≤ 1 := by
  have sub : n.incoming e.id (some port) =
      (n.incoming e.id none).filter fun c => c.target.port = port := by
    rw [Network.incoming_some, Network.incoming_none]
  rw [sub]
  cases h with
  | free none =>
    rw [none]
    exact Nat.zero_le 1
  | fed one =>
    rw [one]
    exact List.length_filter_le _ _
  | joined _ _ _ _ two =>
    rw [two]
    by_cases primary : e.kind.primaryInput = port
    · subst primary
      simp [e.kind.primaryInput_ne_in2.symm]
    · rw [List.filter_cons_of_neg (by simpa using primary)]
      exact List.length_filter_le _ _

private theorem Network.IsLaid.chained (h : n.IsLaid ls) {e : Element} (he : e ∈ n.elements) :
    n.ChainedAt e := by
  have laid : e ∈ laidElements ls := h.elements ▸ he
  have left := h.carries.outgoing (fun a ha => by cases ha) (List.mem_append_right _ laid)
  have entered := h.carries.entered laid
  refine ⟨?_, ?_, ?_, entered.fanIn, ?_⟩
  · rcases left with none | ⟨-, target, one⟩
    · rw [none]
      exact Nat.zero_le 1
    · rw [one]
      exact Nat.le_refl 1
  · intro c hc
    rcases left with none | ⟨-, target, one⟩
    · rw [none] at hc
      cases hc
    · rw [one, List.mem_singleton] at hc
      rw [hc]
  · intro coil
    refine left.resolve_right fun one => ?_
    rw [show e.kind.isCoil = true by rcases coil with kind | kind <;> rw [kind] <;> rfl] at one
    cases one.1
  · intro c hc
    cases entered with
    | free none =>
      rw [none] at hc
      cases hc
    | fed one =>
      rw [one, List.mem_singleton] at hc
      rw [hc]
      exact .inl rfl
    | @joined source s gate hs contact unfed two =>
      rw [two] at hc
      rcases List.mem_pair.mp hc with rfl | rfl
      · exact .inl rfl
      · exact .inr ⟨rfl, Kind.isGate_iff.mp gate, s, hs, rfl, Kind.isContact_iff.mp contact, unfed⟩

private theorem Network.IsLaid.isForwardChain (h : n.IsLaid ls) : n.IsForwardChain := by
  refine ⟨fun c hc => ?_, fun e he => h.chained he⟩
  obtain ⟨d, e, sub, source, -, target, -⟩ := h.linked.forward (h.connections ▸ hc)
  have sub : [d, e].Sublist n.elements := h.elements ▸ sub
  obtain ⟨place, found⟩ := List.sublist_iff_exists_orderEmbedding_getElem?_eq.mp sub
  exact ⟨place 0, place 1, d, e, place.strictMono Nat.zero_lt_one, (found 0).symm, (found 1).symm,
    source, target⟩

private theorem Network.IsLaid.neverCycles (h : n.IsLaid ls) : n.NeverCycles := by
  rintro s rfl path
  exact Simulation.cycle_ne_error_cycle h.coherent h.not_reachesCycle path

end Laid

def Element.renamed (rename : String → String) (e : Element) : Element := { e with id := rename e.id }

def Network.renamed (rename : String → String) (n : Network) : Network where
  id := rename n.id
  elements := n.elements.map (Element.renamed rename)
  connections := n.connections.map (Connection.renamed rename)

private theorem Network.IsLaid.renamed {n : Network} {ls : List Laid} (h : n.IsLaid ls)
    {rename : String → String} (distinct : (n.elements.map fun e => rename e.id).Nodup) :
    (n.renamed rename).IsLaid (ls.map (Laid.map (Element.renamed rename))) := by
  have ids : ∀ e, (Element.renamed rename e).id = rename e.id := fun _ => rfl
  have kinds : ∀ e, (Element.renamed rename e).kind = e.kind := fun _ => rfl
  refine ⟨?_, ?_, h.linked.map kinds, ?_⟩
  · rw [laidElements_map, ← h.elements]
    rfl
  · rw [laidWires_map ids kinds, ← h.connections]
    rfl
  · rw [Network.renamed, List.map_map]
    exact distinct

/-- Building gives a valid network that is a forward chain and in which no scan finds a cycle. So it is
with any ids in the place of those drawn, if they are names and those of the elements are distinct. -/
theorem Program.build_isForwardChain (p : Program) (supply : Supply) : ∃ n next,
    p.build supply = (.ok n, next) ∧ n.Valid ∧ n.IsForwardChain ∧ n.NeverCycles ∧
      ∀ rename : String → String, Text.isName (rename n.id) = true →
        (∀ e ∈ n.elements, Text.isName (rename e.id) = true) →
        (n.elements.map fun e => rename e.id).Nodup →
        (n.renamed rename).check = .ok (n.renamed rename) ∧ (n.renamed rename).Valid ∧
          (n.renamed rename).IsForwardChain ∧ (n.renamed rename).NeverCycles := by
  obtain ⟨id, next, built⟩ := p.build_eq supply
  have result := congrArg Prod.fst built
  have laid := p.isLaid supply id
  refine ⟨_, next, built, valid_of_build result, laid.isForwardChain, laid.neverCycles, ?_⟩
  intro rename named names distinct
  have renamed := laid.renamed distinct
  have valid : ((Network.mk id (laidElements (p.laids supply)) (laidWires (p.laids supply))).renamed
      rename).Valid := by
    refine renamed.coherent.valid named fun e he => ?_
    obtain ⟨d, hd, rfl⟩ := List.mem_map.mp he
    have plain := isPlain_of_build result d hd
    exact Element.IsPlain.valid ⟨names d hd, plain.whole, plain.properties⟩
  have checks := (Network.check_ok_iff _ _).mpr ⟨rfl, valid.named, valid.body⟩
  exact ⟨checks, valid, renamed.isForwardChain, renamed.neverCycles⟩

/-- A door that is opened when both keys are turned, or by a switch of its own; the switch finds the
accumulator empty. -/
def door : Program :=
  [⟨.ld, some "KEY1", none⟩, ⟨.andn, some "KEY2", none⟩, ⟨.ton, none, none⟩,
    ⟨.st, some "DOOR", none⟩, ⟨.or, some "SWITCH", none⟩, ⟨.stn, some "ALARM", none⟩]

/-- The door is built as a forward chain, also with ids that name the house. -/
theorem door_isForwardChain : ∃ n next, door.build {} = (.ok n, next) ∧ n.IsForwardChain ∧
    n.connections.length = 5 ∧ Text.isName ("house " ++ n.id) = true ∧
    (∀ e ∈ n.elements, Text.isName ("house " ++ e.id) = true) ∧
    (n.elements.map fun e => "house " ++ e.id).Nodup ∧
    (n.renamed ("house " ++ ·)).Valid ∧ (n.renamed ("house " ++ ·)).IsForwardChain ∧
    (n.renamed ("house " ++ ·)).NeverCycles := by
  obtain ⟨n, next, built, -, chain, -, renamed⟩ := door.build_isForwardChain {}
  have wires : n.connections.length = 5 := by
    obtain rfl := Except.ok.inj (congrArg Prod.fst built)
    rfl
  have named : Text.isName ("house " ++ n.id) = true := by
    obtain rfl := Except.ok.inj (congrArg Prod.fst built)
    decide
  have names : ∀ e ∈ n.elements, Text.isName ("house " ++ e.id) = true := by
    obtain rfl := Except.ok.inj (congrArg Prod.fst built)
    exact List.all_eq_true.mp (by decide)
  have distinct : (n.elements.map fun e => "house " ++ e.id).Nodup := by
    obtain rfl := Except.ok.inj (congrArg Prod.fst built)
    decide
  obtain ⟨-, valid, chain', runs⟩ := renamed ("house " ++ ·) named names distinct
  exact ⟨n, next, built, chain, wires, named, names, distinct, valid, chain', runs⟩

end RungLogic
