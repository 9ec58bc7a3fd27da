import RungLogic.Proofs.Element.Change
import RungLogic.Proofs.Network.Edit
import RungLogic.Proofs.Outcomes

/-!
Edits one after the other. A removal keeps what passes a test and is never refused, so removals can be made
again and in any order; it takes back an addition, and passes by an addition of something else. Updates of
different parts can be made in any order, and of two updates of one part the second counts.
-/

set_option autoImplicit false
set_option relaxedAutoImplicit false

namespace RungLogic

/-! ## Removals and additions -/

namespace Edit

/-- The edits that take elements or wires away. -/
inductive Removes : Edit → Prop
  | element (id : Value) : Removes (removeElement id)
  | connection (s sp t tp : Value) : Removes (removeConnection s sp t tp)

def sparesElement : Edit → Element → Bool
  | removeElement id, e => id.text? ≠ some e.id
  | _, _ => true

def sparesWire : Edit → Connection → Bool
  | removeElement id, c => id.text? ≠ some c.source.element ∧ id.text? ≠ some c.target.element
  | removeConnection s sp t tp, c => !matchesParts [s, sp, t, tp] c
  | _, _ => true

def connect (c : Connection) : Edit :=
  .addConnection (.text c.source.element) (.text c.source.port) (.text c.target.element)
    (.text c.target.port)

def disconnect (c : Connection) : Edit :=
  .removeConnection (.text c.source.element) (.text c.source.port) (.text c.target.element)
    (.text c.target.port)

private theorem removes_disconnect (c : Connection) : (disconnect c).Removes := .connection ..

private theorem sparesElement_congr (r : Edit) {d e : Element} (same : d.id = e.id) :
    r.sparesElement d = r.sparesElement e := by
  cases r <;> simp [sparesElement, same]

private theorem sparesElement_of_end {r : Edit} {c : Connection} (spared : r.sparesWire c = true)
    {e : Element} (at_ : e.id = c.source.element ∨ e.id = c.target.element) :
    r.sparesElement e = true := by
  cases r with
  | removeElement id =>
    obtain ⟨source, target⟩ := of_decide_eq_true spared
    rcases at_ with at_ | at_
    · exact decide_eq_true (at_ ▸ source)
    · exact decide_eq_true (at_ ▸ target)
  | _ => rfl

private theorem sparesWire_disconnect (c d : Connection) :
    (disconnect c).sparesWire d = decide (d ≠ c) := by
  obtain ⟨⟨a, b⟩, a', b'⟩ := c
  obtain ⟨⟨x, y⟩, x', y'⟩ := d
  simp [disconnect, sparesWire, matchesParts, Connection.parts, Value.text?, eq_comm, and_assoc]

end Edit

namespace Network

variable {n : Network}

/-- The network after an edit; ids for what it creates come from a new supply. -/
def edited (n : Network) (edit : Edit) : Except Error Network := (edit.result n {}).1

private theorem Valid.edited {edit : Edit} {m : Network} (h : n.Valid) (given : n.edited edit = .ok m) :
    m.Valid := (Edit.result_valid h {} edit given).1

/-- The network with the elements and the wires that pass a test each. -/
def kept (n : Network) (p : Element → Bool) (q : Connection → Bool) : Network :=
  { n with elements := n.elements.filter p, connections := n.connections.filter q }

def extended (n : Network) (es : List Element) (cs : List Connection) : Network :=
  { n with elements := n.elements ++ es, connections := n.connections ++ cs }

private theorem kept_kept (n : Network) (p p' : Element → Bool) (q q' : Connection → Bool) :
    (n.kept p q).kept p' q' = n.kept (fun e => p e && p' e) fun c => q c && q' c := by
  simp [kept, List.filter_filter, Bool.and_comm]

private theorem kept_congr {p p' : Element → Bool} {q q' : Connection → Bool}
    (elements : ∀ e ∈ n.elements, p e = p' e) (wires : ∀ c ∈ n.connections, q c = q' c) :
    n.kept p q = n.kept p' q' := by
  rw [kept, kept, List.filter_congr elements, List.filter_congr wires]

private theorem kept_eq_self {p : Element → Bool} {q : Connection → Bool}
    (elements : ∀ e ∈ n.elements, p e = true) (wires : ∀ c ∈ n.connections, q c = true) :
    n.kept p q = n := by
  rw [kept, List.filter_eq_self.mpr elements, List.filter_eq_self.mpr wires]

private theorem kept_extended (n : Network) (p : Element → Bool) (q : Connection → Bool)
    (es : List Element) (cs : List Connection) :
    (n.extended es cs).kept p q = (n.kept p q).extended (es.filter p) (cs.filter q) := by
  simp [kept, extended]

private theorem extended_nil (n : Network) : n.extended [] [] = n := by
  simp [extended]

private theorem Valid.removed {r : Edit} (h : n.Valid) (removes : r.Removes) :
    n.edited r = .ok (n.kept r.sparesElement r.sparesWire) := by
  cases removes with
  | element id =>
    have asked : n.edited (.removeElement id) = Edit.onElement n id n.removeElement := rfl
    rw [asked, Edit.onElement]
    cases found : id.text? with
    | none =>
      rw [kept_eq_self]
      · intro e he
        simp [Edit.sparesElement, found]
      · intro c hc
        simp [Edit.sparesWire, found]
    | some i =>
      refine (removeElement_eq h i).trans (congrArg Except.ok (kept_congr ?_ ?_))
      · intro e he
        simp [Edit.sparesElement, found, eq_comm]
      · intro c hc
        simp [Edit.sparesWire, found, eq_comm]
  | connection s sp t tp =>
    have elements :
        n.elements.filter (Edit.removeConnection s sp t tp).sparesElement = n.elements :=
      List.filter_eq_self.mpr fun _ _ => rfl
    rw [kept, elements]
    exact removeConnections_eq h _

private theorem Valid.removed_again {r : Edit} (h : n.Valid) (removes : r.Removes) :
    (n.edited r).bind (·.edited r) = n.edited r := by
  have once := h.removed removes
  have again := (h.edited once).removed removes
  rw [once, Except.bind, again, kept_kept]
  simp only [Bool.and_self]

private theorem Valid.removed_comm {r r' : Edit} (h : n.Valid) (removes : r.Removes)
    (removes' : r'.Removes) :
    (n.edited r).bind (·.edited r') = (n.edited r').bind (·.edited r) := by
  have first := h.removed removes
  have first' := h.removed removes'
  rw [first, first', Except.bind, Except.bind, (h.edited first).removed removes',
    (h.edited first').removed removes, kept_kept, kept_kept]
  simp only [Bool.and_comm]

private theorem Valid.removed_extended {r : Edit} {es : List Element} {cs : List Connection} (h : n.Valid)
    (after : (n.extended es cs).Valid) (removes : r.Removes)
    (elements : ∀ e ∈ es, r.sparesElement e = false) (wires : ∀ c ∈ cs, r.sparesWire c = false) :
    (n.extended es cs).edited r = n.edited r := by
  have noElement : es.filter r.sparesElement = [] :=
    List.filter_eq_nil_iff.mpr fun e he => by simp [elements e he]
  have noWire : cs.filter r.sparesWire = [] :=
    List.filter_eq_nil_iff.mpr fun c hc => by simp [wires c hc]
  rw [after.removed removes, h.removed removes, kept_extended, noElement, noWire, extended_nil]

private theorem Valid.addElement_ok_iff (h : n.Valid) (e : Element) (m : Network) :
    n.addElement e = .ok m ↔ m = n.extended [e] [] ∧ ∀ d ∈ n.elements, d.id ≠ e.id := by
  rw [Network.addElement_ok_iff h, extended, List.append_nil]

private theorem Valid.connect_ok_iff (h : n.Valid) (c : Connection) (m : Network) :
    n.edited (.connect c) = .ok m ↔
      m = n.extended [] [c] ∧ n.HasEnd .source c.source ∧ n.HasEnd .target c.target := by
  refine (addConnection_values_ok_iff h _ _ _ _ m).trans ?_
  rw [extended, List.append_nil]
  constructor
  · rintro ⟨d, same, drawn⟩
    obtain rfl : d = c := by
      obtain ⟨⟨a, b⟩, a', b'⟩ := c
      obtain ⟨⟨x, y⟩, x', y'⟩ := d
      simpa [Connection.parts, eq_comm, and_assoc] using same
    exact drawn
  · intro drawn
    exact ⟨c, rfl, drawn⟩

private theorem Valid.addElement_removed (h : n.Valid) {e : Element} (he : e.Valid)
    (fresh : ∀ d ∈ n.elements, d.id ≠ e.id) :
    (n.addElement e).bind (·.edited (.removeElement (.text e.id))) = .ok n := by
  have added := (h.addElement_ok_iff e _).mpr ⟨rfl, fresh⟩
  have alone : n.edited (.removeElement (.text e.id)) = .ok n := by
    refine (removeElement_eq h e.id).trans ?_
    rw [h.coherent.without_of_not_mem fresh]
  rw [added, Except.bind, ← alone]
  apply h.removed_extended (h.addElement he added).1 (.element _)
  · simp [Edit.sparesElement, Value.text?]
  · exact List.forall_mem_nil _

private theorem Valid.connect_removed (h : n.Valid) {c : Connection} {m : Network}
    (drawn : n.edited (.connect c) = .ok m) :
    m.edited (.disconnect c) = n.edited (.disconnect c) ∧
      (c ∉ n.connections → m.edited (.disconnect c) = .ok n) := by
  obtain ⟨rfl, -⟩ := (h.connect_ok_iff c m).mp drawn
  have back : (n.extended [] [c]).edited (.disconnect c) = n.edited (.disconnect c) := by
    apply h.removed_extended (h.edited drawn) (Edit.removes_disconnect c)
    · exact List.forall_mem_nil _
    · simp [Edit.sparesWire_disconnect]
  refine ⟨back, fun new => ?_⟩
  rw [back, h.removed (Edit.removes_disconnect c), kept_eq_self]
  · exact fun _ _ => rfl
  · intro d hd
    rw [Edit.sparesWire_disconnect]
    exact decide_eq_true fun same => new (same ▸ hd)

private theorem Valid.addElement_comm {r : Edit} (h : n.Valid) (removes : r.Removes) {e : Element}
    (he : e.Valid) (spared : r.sparesElement e = true) (k : Network) :
    (n.addElement e).bind (·.edited r) = .ok k ↔ (n.edited r).bind (·.addElement e) = .ok k := by
  have first := h.removed removes
  have fresh : (∀ d ∈ (n.kept r.sparesElement r.sparesWire).elements, d.id ≠ e.id) ↔
      ∀ d ∈ n.elements, d.id ≠ e.id := by
    constructor
    · intro fresh d hd same
      exact fresh d (List.mem_filter.mpr ⟨hd, (r.sparesElement_congr same).trans spared⟩) same
    · intro fresh d hd
      exact fresh d (List.mem_filter.mp hd).1
  rw [first, Except.bind, (h.edited first).addElement_ok_iff, fresh, bind_ok_iff]
  have later (added : n.addElement e = .ok (n.extended [e] [])) :
      (n.extended [e] []).edited r = .ok ((n.kept r.sparesElement r.sparesWire).extended [e] []) := by
    rw [(h.addElement he added).1.removed removes, kept_extended, List.filter_singleton, spared]
    rfl
  constructor
  · rintro ⟨m, added, given⟩
    obtain ⟨rfl, new⟩ := (h.addElement_ok_iff e m).mp added
    rw [later added] at given
    exact ⟨(Except.ok.inj given).symm, new⟩
  · rintro ⟨rfl, new⟩
    have added := (h.addElement_ok_iff e _).mpr ⟨rfl, new⟩
    exact ⟨_, added, later added⟩

private theorem hasEnd_kept {p : Element → Bool} {q : Connection → Bool} {side : End} {r : PortEnd}
    (spared : ∀ e ∈ n.elements, e.id = r.element → p e = true) :
    (n.kept p q).HasEnd side r ↔ n.HasEnd side r := by
  constructor
  · rintro ⟨e, he, at_⟩
    exact ⟨e, (List.mem_filter.mp he).1, at_⟩
  · rintro ⟨e, he, at_⟩
    exact ⟨e, List.mem_filter.mpr ⟨he, spared e he at_.1⟩, at_⟩

private theorem Valid.connect_comm {r : Edit} (h : n.Valid) (removes : r.Removes) {c : Connection}
    (spared : r.sparesWire c = true) (k : Network) :
    (n.edited (.connect c)).bind (·.edited r) = .ok k ↔
      (n.edited r).bind (·.edited (.connect c)) = .ok k := by
  have first := h.removed removes
  have source : (n.kept r.sparesElement r.sparesWire).HasEnd .source c.source ↔
      n.HasEnd .source c.source :=
    hasEnd_kept fun e _ at_ => Edit.sparesElement_of_end spared (.inl at_)
  have target : (n.kept r.sparesElement r.sparesWire).HasEnd .target c.target ↔
      n.HasEnd .target c.target :=
    hasEnd_kept fun e _ at_ => Edit.sparesElement_of_end spared (.inr at_)
  rw [first, Except.bind, (h.edited first).connect_ok_iff, source, target, bind_ok_iff]
  have later (drawn : n.edited (.connect c) = .ok (n.extended [] [c])) :
      (n.extended [] [c]).edited r =
        .ok ((n.kept r.sparesElement r.sparesWire).extended [] [c]) := by
    rw [(h.edited drawn).removed removes, kept_extended, List.filter_singleton, spared]
    rfl
  constructor
  · rintro ⟨m, drawn, given⟩
    obtain ⟨rfl, ends⟩ := (h.connect_ok_iff c m).mp drawn
    rw [later drawn] at given
    exact ⟨(Except.ok.inj given).symm, ends⟩
  · rintro ⟨rfl, ends⟩
    have drawn := (h.connect_ok_iff c _).mpr ⟨rfl, ends⟩
    exact ⟨_, drawn, later drawn⟩

/-! ## Updates -/

/-- The same network, with the properties of each element in any order. -/
structure Same (n other : Network) : Prop where
  id : other.id = n.id
  elements : List.Forall₂ Element.Same n.elements other.elements
  connections : other.connections = n.connections

def changed (n : Network) (f : Element → Element) : Network :=
  { n with elements := n.elements.map f }

private theorem changed_changed (n : Network) (f g : Element → Element) :
    (n.changed f).changed g = n.changed fun e => g (f e) := by
  simp [changed]

private theorem same_changed {f g : Element → Element} (same : ∀ e, (f e).Same (g e)) :
    (n.changed f).Same (n.changed g) :=
  ⟨rfl, List.forall₂_map_left_iff.mpr (List.forall₂_map_right_iff.mpr
    (List.forall₂_same.mpr fun e _ => same e)), rfl⟩

private theorem Valid.update_ok_iff (h : n.Valid) {e : Element} (he : e ∈ n.elements) (c : Change)
    (m : Network) :
    n.edited (c.edit (.text e.id)) = .ok m ↔ c.Fits ∧ m = n.replaced e.id (c.on e) := by
  cases c with
  | position p =>
    refine (updatePosition_ok_iff h he p m).trans ?_
    rw [(h.elements e he).moved_iff]
    constructor
    · rintro ⟨placed, place, found, rfl⟩
      exact ⟨placed, by simp [Change.on, found]⟩
    · rintro ⟨placed, rfl⟩
      obtain ⟨place, found⟩ := Option.isSome_iff_exists.mp placed
      exact ⟨placed, place, found, by simp [Change.on, found]⟩
  | property key value =>
    refine (updateProperty_ok_iff h he key value m).trans ?_
    constructor
    · rintro ⟨faultless, name, rfl, rfl⟩
      rw [Element.draftWith_text] at faultless
      exact ⟨⟨name, rfl, ((h.elements e he).put_iff name value).mp faultless⟩, rfl⟩
    · rintro ⟨⟨name, rfl, admits⟩, rfl⟩
      rw [Element.draftWith_text]
      exact ⟨((h.elements e he).put_iff name value).mpr admits, name, rfl, rfl⟩

private theorem Valid.change_ok_iff (h : n.Valid) (c : Change) (id : Value) (m : Network) :
    n.edited (c.edit id) = .ok m ↔
      (c.Fits ∨ ∀ e ∈ n.elements, id ≠ .text e.id) ∧ m = n.changed (c.onNamed id) := by
  by_cases absent : ∀ e ∈ n.elements, id ≠ .text e.id
  · have unchanged : n.changed (c.onNamed id) = n := by
      have each : ∀ e ∈ n.elements, c.onNamed id e = e := by
        intro e he
        exact Change.onNamed_of_not_named fun named => absent e he (Value.eq_text_of_text? named)
      rw [changed, List.map_congr_left each, List.map_id']
    have accepted : n.edited (c.edit id) = .ok n := by
      cases id with
      | text i =>
        have missing : ∀ e ∈ n.elements, e.id ≠ i :=
          fun e he same => absent e he (congrArg Value.text same.symm)
        cases c <;> exact updateElement_of_not_mem missing _
      | _ => cases c <;> rfl
    rw [accepted, unchanged, Except.ok.injEq, eq_comm]
    exact ⟨fun same => ⟨.inr absent, same⟩, And.right⟩
  · obtain ⟨e, he, rfl⟩ : ∃ e ∈ n.elements, id = .text e.id := by simpa using absent
    have replaced : n.replaced e.id (c.on e) = n.changed (c.onNamed (.text e.id)) := by
      refine congrArg (fun es => { n with elements := es }) (List.map_congr_left fun d hd => ?_)
      by_cases same : d.id = e.id
      · obtain rfl := h.coherent.eq_of_id hd he same
        simp [Change.onNamed, Value.text?]
      · simp [Change.onNamed, Value.text?, same, Ne.symm same]
    rw [h.update_ok_iff he, replaced, or_iff_left]
    intro missing
    exact missing e he rfl

private theorem absent_changed {c : Change} {id other : Value} :
    (∀ e ∈ (n.changed (c.onNamed id)).elements, other ≠ .text e.id) ↔
      ∀ e ∈ n.elements, other ≠ .text e.id := by
  simp [changed, Change.id_onNamed]

private theorem Valid.changes_ok_iff {m : Network} {c d : Change} {id id' : Value} (h : n.Valid)
    (first : n.edited (c.edit id) = .ok m) (k : Network) :
    m.edited (d.edit id') = .ok k ↔
      (d.Fits ∨ ∀ e ∈ n.elements, id' ≠ .text e.id) ∧
        k = n.changed fun e => d.onNamed id' (c.onNamed id e) := by
  have valid := h.edited first
  obtain ⟨-, rfl⟩ := (h.change_ok_iff c id m).mp first
  rw [valid.change_ok_iff, absent_changed, changed_changed]

private theorem Valid.updates_comm {m m' : Network} {c d : Change} {id id' : Value} (h : n.Valid)
    (apart : id ≠ id' ∨ c.Apart d) (first : n.edited (c.edit id) = .ok m)
    (second : n.edited (d.edit id') = .ok m') :
    ∃ k k', m.edited (d.edit id') = .ok k ∧ m'.edited (c.edit id) = .ok k' ∧ k.Same k' ∧
      (id ≠ id' → k' = k) := by
  obtain ⟨fits, -⟩ := (h.change_ok_iff c id m).mp first
  obtain ⟨fits', -⟩ := (h.change_ok_iff d id' m').mp second
  refine ⟨_, _, (h.changes_ok_iff first _).mpr ⟨fits', rfl⟩,
    (h.changes_ok_iff second _).mpr ⟨fits, rfl⟩, same_changed fun e => ?_, fun differ => ?_⟩
  · rcases apart with differ | apart
    · rw [Change.onNamed_comm differ]
      exact .refl _
    · exact apart.same_onNamed id id' e
  · exact congrArg n.changed (funext fun e => (Change.onNamed_comm differ e).symm)

private theorem Valid.second_update_ok {m k : Network} {c d : Change} {id id' : Value} (h : n.Valid)
    (first : n.edited (c.edit id) = .ok m) (second : m.edited (d.edit id') = .ok k) :
    ∃ m', n.edited (d.edit id') = .ok m' := by
  obtain ⟨fits, -⟩ := (h.changes_ok_iff first k).mp second
  exact ⟨_, (h.change_ok_iff d id' _).mpr ⟨fits, rfl⟩⟩

private theorem Valid.update_overrides {m : Network} {c d : Change} {id : Value} (h : n.Valid)
    (together : c.Together d) (first : n.edited (c.edit id) = .ok m) (k : Network) :
    m.edited (d.edit id) = .ok k ↔ n.edited (d.edit id) = .ok k := by
  rw [h.changes_ok_iff first, h.change_ok_iff]
  refine and_congr_right fun accepted => ?_
  have same : (n.changed fun e => d.onNamed id (c.onNamed id e)) = n.changed (d.onNamed id) := by
    refine congrArg (fun es => { n with elements := es }) (List.map_congr_left fun e he => ?_)
    by_cases named : id.text? = some e.id
    · have fits : d.Fits := accepted.resolve_right fun absent =>
        absent e he (Value.eq_text_of_text? named)
      rw [Change.onNamed_of_named (by rwa [Change.id_onNamed]), Change.onNamed_of_named named,
        Change.onNamed_of_named named, together.on_on fits]
    · rw [Change.onNamed_of_not_named (c := c) named]
  rw [same]

/-- Edits of valid networks undo and commute. What is added is taken back by its removal; removals can be
made again and in any order; a removal passes by an addition of something else. Updates of different
elements, or of different parts of one element, commute, and of two updates of one part the second
counts. -/
theorem edits_undo_and_commute (h : n.Valid) :
    (∀ e : Element, e.Valid → (∀ d ∈ n.elements, d.id ≠ e.id) →
      (n.addElement e).bind (·.edited (.removeElement (.text e.id))) = .ok n) ∧
    (∀ c m, n.edited (.connect c) = .ok m →
      m.edited (.disconnect c) = n.edited (.disconnect c) ∧
        (c ∉ n.connections → m.edited (.disconnect c) = .ok n)) ∧
    (∀ r r' : Edit, r.Removes → r'.Removes →
      (∃ m, n.edited r = .ok m) ∧ (n.edited r).bind (·.edited r) = n.edited r ∧
        (n.edited r).bind (·.edited r') = (n.edited r').bind (·.edited r)) ∧
    (∀ e : Element, e.Valid → ∀ id : Value, id ≠ .text e.id → ∀ k,
      (n.addElement e).bind (·.edited (.removeElement id)) = .ok k ↔
        (n.edited (.removeElement id)).bind (·.addElement e) = .ok k) ∧
    (∀ (c : Connection) (id : Value), id ≠ .text c.source.element → id ≠ .text c.target.element → ∀ k,
      (n.edited (.connect c)).bind (·.edited (.removeElement id)) = .ok k ↔
        (n.edited (.removeElement id)).bind (·.edited (.connect c)) = .ok k) ∧
    (∀ (id id' : Value) (c d : Change), (id ≠ id' ∨ c.Apart d) →
      (∀ m m', n.edited (c.edit id) = .ok m → n.edited (d.edit id') = .ok m' →
        ∃ k k', m.edited (d.edit id') = .ok k ∧ m'.edited (c.edit id) = .ok k' ∧ k.Same k' ∧
          (id ≠ id' → k' = k)) ∧
      ∀ m k, n.edited (c.edit id) = .ok m → m.edited (d.edit id') = .ok k →
        ∃ m', n.edited (d.edit id') = .ok m') ∧
    ∀ (id : Value) (c d : Change), c.Together d → ∀ m, n.edited (c.edit id) = .ok m → ∀ k,
      m.edited (d.edit id) = .ok k ↔ n.edited (d.edit id) = .ok k := by
  have named {id : Value} {i : String} (differ : id ≠ .text i) : id.text? ≠ some i :=
    fun same => differ (Value.eq_text_of_text? same)
  refine ⟨fun e he fresh => h.addElement_removed he fresh, fun c m drawn => h.connect_removed drawn,
    ?_, ?_, ?_, ?_, fun id c d together m first => h.update_overrides together first⟩
  · intro r r' removes removes'
    exact ⟨⟨_, h.removed removes⟩, h.removed_again removes, h.removed_comm removes removes'⟩
  · intro e he id differ
    exact h.addElement_comm (.element id) he (decide_eq_true (named differ))
  · intro c id source target
    exact h.connect_comm (.element id) (decide_eq_true ⟨named source, named target⟩)
  · intro id id' c d apart
    exact ⟨fun m m' first second => h.updates_comm apart first second,
      fun m k first second => h.second_update_ok first second⟩

/-- On the bench a wire is drawn and taken back, and the switch is given two properties in either
order. -/
theorem bench_edits_undo :
    let wire : Connection := ⟨⟨"switch", "out"⟩, ⟨"lamp", "in"⟩⟩
    let wear : Change := .property (.text "wear") (.int 5)
    let preset : Change := .property (.text "preset") (.text "T#2s")
    let wired := bench.extended [] [wire]
    bench.Valid ∧ bench.edited (.connect wire) = .ok wired ∧
      wired.edited (.disconnect wire) = .ok bench ∧
      ∃ m m' k k', bench.edited (wear.edit (.text "switch")) = .ok m ∧
        bench.edited (preset.edit (.text "switch")) = .ok m' ∧
        m.edited (preset.edit (.text "switch")) = .ok k ∧
        m'.edited (wear.edit (.text "switch")) = .ok k' ∧ k.Same k' := by
  intro wire wear preset wired
  obtain ⟨-, undone, -, -, -, commute, -⟩ := edits_undo_and_commute valid_bench
  have drawn : bench.edited (.connect wire) = .ok wired :=
    (valid_bench.connect_ok_iff wire wired).mpr
      ⟨rfl, ⟨_, List.mem_cons_self, rfl, by decide⟩,
        ⟨_, List.mem_cons_of_mem _ List.mem_cons_self, rfl, by decide⟩⟩
  have apart : wear.Apart preset := .keys _ _ (by simp)
  have first := (valid_bench.change_ok_iff wear (.text "switch") _).mpr
    ⟨.inl ⟨"wear", rfl, by simp [Element.Admits]⟩, rfl⟩
  have second := (valid_bench.change_ok_iff preset (.text "switch") _).mpr
    ⟨.inl ⟨"preset", rfl, by simp [Element.Admits, Element.isQuantity]⟩, rfl⟩
  obtain ⟨k, k', after, after', same, -⟩ :=
    (commute (.text "switch") (.text "switch") wear preset (.inr apart)).1 _ _ first second
  exact ⟨valid_bench, drawn, (undone wire wired drawn).2 (by simp [bench]), _, _, k, k', first, second,
    after, after', same⟩

end Network

end RungLogic
