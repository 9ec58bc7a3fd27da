import RungLogic.Proofs.Network.Beside
import RungLogic.Proofs.Network.Reach

/-!
The trace of a network made of parts without an id in common. A part keeps its elements and the wires
at them in the whole, in their order, and all that the trace reads of an element is found there: whether
it is fed, whether it merely serves gates, what its instruction is and where the walk goes on. So the
walk from an element of a part stays in that part, and meets what it meets when the part is alone.
-/

set_option autoImplicit false
set_option relaxedAutoImplicit false

namespace RungLogic

namespace Network

/-- A part of a network that nothing else is wired to: its ids name its own elements, and the wires at
them are its own, in their order. -/
structure IsComponent (n w : Network) : Prop where
  found : ∀ e ∈ n.elements, w.element? e.id = some e
  entering : ∀ e ∈ n.elements, w.incoming e.id none = n.incoming e.id none
  leaving : ∀ e ∈ n.elements, w.outgoing e.id none = n.outgoing e.id none

variable {n m w : Network}

namespace IsComponent

variable {e : Element}

private theorem incoming (h : n.IsComponent w) (he : e ∈ n.elements) (port : Option String) :
    w.incoming e.id port = n.incoming e.id port := by
  rcases port with _ | port
  · exact h.entering e he
  · rw [incoming_some, incoming_some, ← incoming_none, h.entering e he, incoming_none]

private theorem outgoing (h : n.IsComponent w) (he : e ∈ n.elements) (port : Option String) :
    w.outgoing e.id port = n.outgoing e.id port := by
  rcases port with _ | port
  · exact h.leaving e he
  · rw [outgoing_some, outgoing_some, ← outgoing_none, h.leaving e he, outgoing_none]

private theorem element?_source (h : n.IsComponent w) (coherent : n.Coherent) {c : Connection}
    (hc : c ∈ n.connections) : w.element? c.source.element = n.element? c.source.element := by
  obtain ⟨d, hd, same, -⟩ := coherent.source c hc
  rw [← same, h.found d hd, coherent.element?_of_mem hd]

private theorem element?_target (h : n.IsComponent w) (coherent : n.Coherent) {c : Connection}
    (hc : c ∈ n.connections) : w.element? c.target.element = n.element? c.target.element := by
  obtain ⟨d, hd, same, -⟩ := coherent.target c hc
  rw [← same, h.found d hd, coherent.element?_of_mem hd]

private theorem isFed (h : n.IsComponent w) (coherent : n.Coherent) (he : e ∈ n.elements) :
    w.isFed e.id = n.isFed e.id := by
  rw [isFed_eq, isFed_eq, ← incoming_none, ← incoming_none, h.incoming he, Bool.eq_iff_iff,
    List.any_eq_true, List.any_eq_true]
  refine exists_congr fun c => and_congr_right fun hc => ?_
  rw [feeds, feeds, h.element?_target coherent (List.mem_filter.mp hc).1]

private theorem isOperandContact (h : n.IsComponent w) (coherent : n.Coherent) (he : e ∈ n.elements) :
    w.isOperandContact e = n.isOperandContact e := by
  have gates : (n.outgoing e.id none).all w.endsAtGate = (n.outgoing e.id none).all n.endsAtGate := by
    rw [Bool.eq_iff_iff, List.all_eq_true, List.all_eq_true]
    refine forall₂_congr fun c hc => ?_
    rw [endsAtGate, endsAtGate, h.element?_target coherent (List.mem_filter.mp hc).1]
  simp only [Network.isOperandContact, h.incoming he, h.outgoing he, gates]

private theorem instruction? (h : n.IsComponent w) (coherent : n.Coherent) (he : e ∈ n.elements) :
    w.instruction? e = n.instruction? e := by
  have secondSide : w.secondSide? e = n.secondSide? e := by
    rw [secondSide?, secondSide?, h.incoming he]
    rcases hhead : (n.incoming e.id (some "in2")).head? with _ | c
    · rfl
    · have hc := List.mem_of_mem_head? (Option.mem_def.mpr hhead)
      exact h.element?_source coherent (List.mem_filter.mp hc).1
  simp only [Network.instruction?, operandOf, secondSide]

private theorem successors (h : n.IsComponent w) (coherent : n.Coherent) (o : TraceOptions)
    (he : e ∈ n.elements) : w.successors o e = n.successors o e := by
  have onward : (n.outgoing e.id (some e.kind.primaryOutput)).filterMap
      (fun c => w.element? c.target.element) =
        (n.outgoing e.id (some e.kind.primaryOutput)).filterMap
          fun c => n.element? c.target.element := by
    apply List.filterMap_congr
    intro c hc
    exact h.element?_target coherent (List.mem_filter.mp hc).1
  rw [Network.successors, Network.successors, isExpanded, isExpanded, h.instruction? coherent he,
    h.outgoing he, onward]

/-- A walk in the whole that begins in a part does what it does there, after elements of other parts.
The induction is on the walk in the part. -/
private theorem walk (h : n.IsComponent w) (coherent : n.Coherent) (o : TraceOptions)
    {before : List Element}
    (others : ∀ d ∈ before, ∀ e ∈ n.elements, d.id ≠ e.id) (met : List Element) (queue : List String)
    (own : ∀ id ∈ queue, ∃ e ∈ n.elements, e.id = id) :
    w.walk o (before ++ met) queue = before ++ n.walk o met queue := by
  have isMet_before (met : List Element) {e : Element} (he : e ∈ n.elements) :
      isMet (before ++ met) e.id = isMet met e.id := by
    have new : isMet before e.id = false := by
      rw [isMet, List.any_eq_false]
      intro d hd
      exact Bool.not_eq_true _ ▸ decide_eq_false (others d hd e he)
    rw [isMet, List.any_append]
    exact (congrArg (· || isMet met e.id) new).trans (Bool.false_or _)
  fun_induction Network.walk n o met queue with
  | case1 met => exact walk_nil w o _
  | case2 met id rest missing ih =>
    obtain ⟨e, he, rfl⟩ := own id List.mem_cons_self
    exact absurd (missing.symm.trans (coherent.element?_of_mem he)) (Option.some_ne_none e).symm
  | case3 met id rest e found old ih =>
    obtain ⟨he, rfl⟩ := coherent.element?_eq_some_iff.mp found
    rw [walk_skip (h.found e he) ((isMet_before met he).trans old)]
    exact ih fun id hid => own id (List.mem_cons_of_mem _ hid)
  | case4 met id rest e found new _ ih =>
    obtain ⟨he, rfl⟩ := coherent.element?_eq_some_iff.mp found
    have fresh := (isMet_before met he).trans (Bool.eq_false_iff.mpr new)
    rw [walk_meet (h.found e he) fresh, h.successors coherent o he, List.append_assoc]
    apply ih
    intro id hid
    rcases List.mem_append.mp hid with hid | hid
    · exact own id (List.mem_cons_of_mem _ hid)
    · obtain ⟨d, hd, rfl⟩ := List.mem_map.mp hid
      obtain ⟨-, c, -, -, hmem, -⟩ := (mem_successors_iff coherent).mp hd
      exact ⟨d, hmem, rfl⟩

private theorem seeds (h : n.IsComponent w) (coherent : n.Coherent) (o : TraceOptions)
    {before : List Element}
    (others : ∀ d ∈ before, ∀ e ∈ n.elements, d.id ≠ e.id) (met seeds : List Element)
    (own : ∀ e ∈ seeds, e ∈ n.elements) :
    seeds.foldl (fun met e => w.walk o met [e.id]) (before ++ met) =
      before ++ seeds.foldl (fun met e => n.walk o met [e.id]) met := by
  induction seeds generalizing met with
  | nil => rfl
  | cons s seeds ih =>
    have begun : w.walk o (before ++ met) [s.id] = before ++ n.walk o met [s.id] := by
      apply h.walk coherent o others met
      intro id hid
      exact ⟨s, own s List.mem_cons_self, (List.mem_singleton.mp hid).symm⟩
    rw [List.foldl_cons, List.foldl_cons, begun]
    exact ih _ fun e he => own e (List.mem_cons_of_mem s he)

private theorem filter_entries (h : n.IsComponent w) (coherent : n.Coherent) :
    n.elements.filter (fun e => !w.isFed e.id && !w.isOperandContact e) = n.entries := by
  apply List.filter_congr
  intro e he
  rw [h.isFed coherent he, h.isOperandContact coherent he]

end IsComponent

namespace Merges

private theorem isComponent_left (h : n.Merges m w) (hn : n.Coherent) (hm : m.Coherent)
    (apart : n.Apart m) :
    n.IsComponent w := by
  refine ⟨fun e he => ?_, fun e he => ?_, fun e he => ?_⟩
  · rw [h.element?, hn.element?_of_mem he]
    rfl
  · apply h.connections.filter_left
    intro c hc
    obtain ⟨d, hd, same, -⟩ := hm.target c hc
    simpa [← same] using (apart e he d hd).symm
  · apply h.connections.filter_left
    intro c hc
    obtain ⟨d, hd, same, -⟩ := hm.source c hc
    simpa [← same] using (apart e he d hd).symm

private theorem isComponent_right (h : n.Merges m w) (hn : n.Coherent) (hm : m.Coherent)
    (apart : n.Apart m) :
    m.IsComponent w := by
  refine ⟨fun e he => ?_, fun e he => ?_, fun e he => ?_⟩
  · rw [h.element?, element?_eq_none fun d hd => apart d hd e he, hm.element?_of_mem he]
    rfl
  · apply h.connections.swap.filter_left
    intro c hc
    obtain ⟨d, hd, same, -⟩ := hn.target c hc
    simpa [← same] using apart d hd e he
  · apply h.connections.swap.filter_left
    intro c hc
    obtain ⟨d, hd, same, -⟩ := hn.source c hc
    simpa [← same] using apart d hd e he

end Merges

private theorem mem_elements_of_mem_order (coherent : n.Coherent) {o : TraceOptions} {e : Element}
    (he : e ∈ n.order o) : e ∈ n.elements :=
  (((order_spec coherent o).2 e).mp he).mem_elements

/-- The walk over two parts meets what it meets in the first and then what it meets in the second. -/
private theorem Merges.order (h : n.Merges m w) (hn : n.Coherent) (hm : m.Coherent) (apart : n.Apart m)
    (o : TraceOptions) : w.order o = n.order o ++ m.order o := by
  have left := h.isComponent_left hn hm apart
  have right := h.isComponent_right hn hm apart
  have entries : w.entries = n.entries ++ m.entries := by
    rw [Network.entries, h.elements, List.filter_append, left.filter_entries hn,
      right.filter_entries hm]
  have first : n.entries.foldl (fun met e => w.walk o met [e.id]) [] = n.order o := by
    have others : ∀ d ∈ ([] : List Element), ∀ e ∈ n.elements, d.id ≠ e.id := by simp
    exact left.seeds hn o others [] n.entries fun e he => (List.mem_filter.mp he).1
  have second : m.entries.foldl (fun met e => w.walk o met [e.id]) (n.order o) =
      n.order o ++ m.order o := by
    have others : ∀ d ∈ n.order o, ∀ e ∈ m.elements, d.id ≠ e.id :=
      fun d hd => apart d (mem_elements_of_mem_order hn hd)
    have seeds := right.seeds hm o others [] m.entries fun e he => (List.mem_filter.mp he).1
    rwa [List.append_nil] at seeds
  rw [Network.order, entries, List.foldl_append, first, second]

/-- Two valid networks without an id in common, put together with their wires in whatever way between
each other, are a valid network under any name. Its trace is the trace of the first and then that of the
second, and so are the notices about what has no form. -/
theorem trace_merged (validN : n.Valid) (validM : m.Valid) (apart : n.Apart m) (merges : n.Merges m w)
    (o : TraceOptions) :
    (Text.isName w.id = true → w.Valid) ∧ w.trace o = n.trace o ++ m.trace o ∧
      w.untraced o = n.untraced o ++ m.untraced o := by
  have hn := validN.coherent
  have hm := validM.coherent
  have left : ∀ e ∈ n.order o, w.instruction? e = n.instruction? e := fun e he =>
    (merges.isComponent_left hn hm apart).instruction? hn (mem_elements_of_mem_order hn he)
  have right : ∀ e ∈ m.order o, w.instruction? e = m.instruction? e := fun e he =>
    (merges.isComponent_right hn hm apart).instruction? hm (mem_elements_of_mem_order hm he)
  refine ⟨merges.valid validN validM apart, ?_, ?_⟩
  · rw [trace, merges.order hn hm apart, List.filterMap_append, List.filterMap_congr left,
      List.filterMap_congr right]
    rfl
  · simp only [untraced, merges.order hn hm apart, List.filterMap_append]
    congr 1
    · exact List.filterMap_congr fun e he => by rw [notice?, notice?, left e he]
    · exact List.filterMap_congr fun e he => by rw [notice?, notice?, right e he]

/-- A bell with a button that keeps ringing once it has been pressed. -/
def doorbell : Network where
  id := "doorbell"
  elements :=
    [⟨"button", .contact, {}, [("variable", .text "X3")]⟩,
      ⟨"latch", .contact, {}, [("variable", .text "Y2")]⟩,
      ⟨"either", .or, {}, []⟩,
      ⟨"bell", .coil, {}, [("variable", .text "Y2")]⟩]
  connections :=
    [⟨⟨"button", "out"⟩, ⟨"either", "in1"⟩⟩, ⟨⟨"latch", "out"⟩, ⟨"either", "in2"⟩⟩,
      ⟨⟨"either", "out"⟩, ⟨"bell", "in"⟩⟩]

/-- The lamp with its echo and the bell, whose wires come between those of the lamp. -/
def lampAndBell : Network where
  id := "lamp and bell"
  elements := echoBehindPulse.elements ++ doorbell.elements
  connections :=
    [⟨⟨"switch", "out"⟩, ⟨"gate", "in1"⟩⟩, ⟨⟨"guard", "out"⟩, ⟨"gate", "in2"⟩⟩,
      ⟨⟨"button", "out"⟩, ⟨"either", "in1"⟩⟩, ⟨⟨"guard", "out"⟩, ⟨"gate", "in2"⟩⟩,
      ⟨⟨"latch", "out"⟩, ⟨"either", "in2"⟩⟩, ⟨⟨"gate", "out"⟩, ⟨"pulse", "in"⟩⟩,
      ⟨⟨"pulse", "q"⟩, ⟨"lamp", "in"⟩⟩, ⟨⟨"lamp", "out"⟩, ⟨"echo", "in"⟩⟩,
      ⟨⟨"either", "out"⟩, ⟨"bell", "in"⟩⟩, ⟨⟨"echo", "out"⟩, ⟨"lamp", "in"⟩⟩]

private theorem valid_doorbell : doorbell.Valid := by decide

private theorem echoBehindPulse_apart_doorbell : echoBehindPulse.Apart doorbell := by decide

private theorem merges_lampAndBell : echoBehindPulse.Merges doorbell lampAndBell :=
  ⟨rfl, .left (.left (.right (.left (.right (.left (.left (.left (.right (.left .nil)))))))))⟩

/-- The bell comes behind the lamp in the trace, although its wires stand between the lamp's. -/
theorem lamp_then_bell :
    echoBehindPulse.Valid ∧ doorbell.Valid ∧ echoBehindPulse.Apart doorbell ∧
      echoBehindPulse.Merges doorbell lampAndBell ∧ lampAndBell.Valid ∧
      lampAndBell.trace ⟨true⟩ = echoBehindPulse.trace ⟨true⟩ ++ doorbell.trace ⟨true⟩ := by
  obtain ⟨valid, traced, -⟩ := trace_merged valid_echoBehindPulse valid_doorbell
    echoBehindPulse_apart_doorbell merges_lampAndBell ⟨true⟩
  exact ⟨valid_echoBehindPulse, valid_doorbell, echoBehindPulse_apart_doorbell, merges_lampAndBell,
    valid (by decide), traced⟩

end Network

end RungLogic
