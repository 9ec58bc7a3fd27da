import RungLogic.Proofs.Element.Edit
import RungLogic.Proofs.Network.Changes
import RungLogic.Proofs.Network.Document

/-!
Edits of valid networks. An edit changes a part of the network and has the whole checked again; on a
valid network the check comes to the part that is new. So what an edit gives is known in advance, it
is refused for the part that is new and for nothing else, and every run of edits keeps the network
valid, with its id.
-/

set_option autoImplicit false
set_option relaxedAutoImplicit false

namespace RungLogic

namespace Network

variable {n : Network}

private theorem Valid.check_ok_iff (h : n.Valid) (es : List Element) (cs : List Connection)
    (m : Network) :
    check ⟨n.id, es, cs⟩ = .ok m ↔ m = ⟨n.id, es, cs⟩ ∧ Coherent ⟨n.id, es, cs⟩ := by
  rw [Network.check_ok_iff, coherent_iff]
  simp [h.named]

private theorem element?_eq_none_iff {id : String} :
    n.element? id = none ↔ ∀ e ∈ n.elements, e.id ≠ id := by
  simp [element?, List.find?_eq_none]

theorem removeElement_eq (h : n.Valid) (id : String) : n.removeElement id = .ok (n.without id) := by
  unfold removeElement
  split
  · rename_i absent
    rw [h.coherent.without_of_not_mem (element?_eq_none_iff.mp absent)]
  · have filtered : (n.connections.filter fun c => !touches id c) =
        n.connections.filter fun c => c.source.element ≠ id ∧ c.target.element ≠ id := by
      apply List.filter_congr
      intro c hc
      simp [touches]
    rw [filtered]
    exact (h.check_ok_iff _ _ _).mpr ⟨rfl, h.coherent.without id⟩

theorem removeConnections_eq (h : n.Valid) (matching : Connection → Bool) :
    n.removeConnections matching =
      .ok { n with connections := n.connections.filter fun c => !matching c } := by
  apply (h.check_ok_iff _ _ _).mpr
  exact ⟨rfl, h.coherent.fewer fun c hc => (List.mem_filter.mp hc).1⟩

theorem addElement_ok_iff (h : n.Valid) (e : Element) (m : Network) :
    n.addElement e = .ok m ↔
      m = { n with elements := n.elements ++ [e] } ∧ ∀ d ∈ n.elements, d.id ≠ e.id := by
  rw [addElement, h.check_ok_iff, h.coherent.append_element_iff]

private theorem addConnection_ok_iff (h : n.Valid) (c : Connection) (m : Network) :
    n.addConnection c = .ok m ↔
      m = { n with connections := n.connections ++ [c] } ∧
        n.HasEnd .source c.source ∧ n.HasEnd .target c.target := by
  rw [addConnection, h.check_ok_iff, h.coherent.append_connection_iff]

theorem updateElement_of_not_mem {id : String} (absent : ∀ e ∈ n.elements, e.id ≠ id)
    (update : Element → Except Error Element) : n.updateElement id update = .ok n := by
  rw [updateElement, element?_eq_none_iff.mpr absent]

private theorem mapM_update_ok {id : String} {update : Element → Except Error Element}
    {es : List Element} {other : Element}
    (each : ∀ e ∈ es, e.id = id → update e = .ok other) :
    (es.mapM fun e => if e.id = id then update e else .ok e) =
      .ok (es.map fun e => if e.id = id then other else e) := by
  induction es with
  | nil => rfl
  | cons e rest ih =>
    have others := ih fun d hd => each d (List.mem_cons_of_mem _ hd)
    rw [List.mapM_cons, others]
    by_cases same : e.id = id
    · rw [if_pos same, each e List.mem_cons_self same, List.map_cons, if_pos same]
      rfl
    · rw [if_neg same, List.map_cons, if_neg same]
      rfl

private theorem mapM_update_error {id : String} {update : Element → Except Error Element}
    {es : List Element} {e : Element} {error : Error} (he : e ∈ es) (hid : e.id = id)
    (each : ∀ d ∈ es, d.id = id → update d = .error error) :
    (es.mapM fun e => if e.id = id then update e else .ok e) = .error error := by
  induction es with
  | nil => simp at he
  | cons d rest ih =>
    rw [List.mapM_cons]
    by_cases same : d.id = id
    · rw [if_pos same, each d List.mem_cons_self same]
      rfl
    · have hrest : e ∈ rest := by
        rcases List.mem_cons.mp he with rfl | hrest
        · exact absurd hid same
        · exact hrest
      rw [if_neg same, ih hrest fun d hd => each d (List.mem_cons_of_mem _ hd)]
      rfl

private theorem updateElement_ok_iff (h : n.Valid) {e : Element} (he : e ∈ n.elements)
    (update : Element → Except Error Element)
    (keeps : ∀ other, update e = .ok other → other.id = e.id ∧ other.kind = e.kind) (m : Network) :
    n.updateElement e.id update = .ok m ↔
      ∃ other, update e = .ok other ∧ m = n.replaced e.id other := by
  have alone (d : Element) (hd : d ∈ n.elements) (same : d.id = e.id) : d = e :=
    h.coherent.eq_of_id hd he same
  rw [updateElement, h.coherent.element?_of_mem he]
  cases updated : update e with
  | error error =>
    have each (d : Element) (hd : d ∈ n.elements) (same : d.id = e.id) :
        update d = .error error := by rw [alone d hd same, updated]
    simp only [mapM_update_error he rfl each]
    constructor
    · intro impossible
      cases impossible
    · rintro ⟨other, impossible, -⟩
      cases impossible
  | ok other =>
    have each (d : Element) (hd : d ∈ n.elements) (same : d.id = e.id) :
        update d = .ok other := by rw [alone d hd same, updated]
    obtain ⟨id, kind⟩ := keeps other updated
    have coherent := h.coherent.replaced he id kind
    simp only [mapM_update_ok each]
    show check ⟨n.id, (n.replaced e.id other).elements, n.connections⟩ = .ok m ↔ _
    rw [h.check_ok_iff]
    constructor
    · rintro ⟨rfl, -⟩
      exact ⟨other, rfl, rfl⟩
    · rintro ⟨other', same, rfl⟩
      obtain rfl := Except.ok.inj same
      exact ⟨rfl, coherent⟩

theorem addConnection_values_ok_iff (h : n.Valid) (s sp t tp : Value) (m : Network) :
    (Connection.make s sp t tp).bind n.addConnection = .ok m ↔
      ∃ c : Connection, [s, sp, t, tp] = c.parts.map .text ∧
        m = { n with connections := n.connections ++ [c] } ∧
        n.HasEnd .source c.source ∧ n.HasEnd .target c.target := by
  constructor
  · intro given
    cases made : Connection.ofValues s sp t tp with
    | error faults =>
      rw [Connection.make, made] at given
      cases given
    | ok c =>
      rw [Connection.make, made] at given
      have added := (addConnection_ok_iff h c m).mp given
      exact ⟨c, ((Connection.ofValues_ok_iff s sp t tp c).mp made).1, added⟩
  · rintro ⟨c, same, added⟩
    have made := (Connection.ofValues_ok_iff s sp t tp c).mpr
      ⟨same, h.connection_of_ends added.2.1 added.2.2⟩
    rw [Connection.make, made]
    exact (addConnection_ok_iff h c m).mpr added

theorem updatePosition_ok_iff (h : n.Valid) {e : Element} (he : e ∈ n.elements) (p : Placement)
    (m : Network) :
    n.updatePosition e.id p = .ok m ↔ ({ e.draft with position := p } : Element.Draft).faults = [] ∧
      ∃ place, p.position? = some place ∧ m = n.replaced e.id { e with position := place } := by
  have keeps (other : Element) (moved : e.move p = .ok other) :
      other.id = e.id ∧ other.kind = e.kind := by
    obtain ⟨-, place, -, rfl⟩ := (e.move_ok_iff p other).mp moved
    exact ⟨rfl, rfl⟩
  rw [updatePosition, updateElement_ok_iff h he _ keeps]
  simp only [Element.move_ok_iff]
  constructor
  · rintro ⟨other, ⟨none, place, found, rfl⟩, rfl⟩
    exact ⟨none, place, found, rfl⟩
  · rintro ⟨none, place, found, rfl⟩
    exact ⟨_, ⟨none, place, found, rfl⟩, rfl⟩

theorem updateProperty_ok_iff (h : n.Valid) {e : Element} (he : e ∈ n.elements)
    (key value : Value) (m : Network) :
    n.updateProperty e.id key value = .ok m ↔ (e.draftWith key value).faults = [] ∧
      ∃ name, key = .text name ∧
        m = n.replaced e.id { e with properties := e.properties.put name value } := by
  have keeps (other : Element) (set : e.setProperty key value = .ok other) :
      other.id = e.id ∧ other.kind = e.kind := by
    obtain ⟨-, name, -, rfl⟩ := (e.setProperty_ok_iff key value other).mp set
    exact ⟨rfl, rfl⟩
  rw [updateProperty, updateElement_ok_iff h he _ keeps]
  simp only [Element.setProperty_ok_iff]
  constructor
  · rintro ⟨other, ⟨none, name, found, rfl⟩, rfl⟩
    exact ⟨none, name, found, rfl⟩
  · rintro ⟨none, name, found, rfl⟩
    exact ⟨_, ⟨none, name, found, rfl⟩, rfl⟩

private theorem Valid.updateElement {m : Network} (h : n.Valid) {id : String}
    {update : Element → Except Error Element}
    (keeps : ∀ e other, update e = .ok other → other.id = e.id ∧ other.kind = e.kind ∧ other.Valid)
    (given : n.updateElement id update = .ok m) : m.Valid ∧ m.id = n.id := by
  cases found : n.element? id with
  | none =>
    rw [updateElement_of_not_mem (element?_eq_none_iff.mp found)] at given
    obtain rfl := Except.ok.inj given
    exact ⟨h, rfl⟩
  | some e =>
    obtain ⟨he, rfl⟩ := h.coherent.element?_eq_some_iff.mp found
    have kept (other : Element) (done : update e = .ok other) :
        other.id = e.id ∧ other.kind = e.kind := by
      obtain ⟨id, kind, -⟩ := keeps e other done
      exact ⟨id, kind⟩
    obtain ⟨other, done, rfl⟩ := (updateElement_ok_iff h he update kept m).mp given
    obtain ⟨id, kind, valid⟩ := keeps e other done
    exact ⟨h.replaced he id kind valid, rfl⟩

private theorem Valid.updatePosition {m : Network} (h : n.Valid) {id : String} {p : Placement}
    (given : n.updatePosition id p = .ok m) : m.Valid ∧ m.id = n.id := by
  apply h.updateElement ?_ given
  intro e other moved
  obtain ⟨-, place, -, rfl⟩ := (e.move_ok_iff p other).mp moved
  exact ⟨rfl, rfl, Element.move_valid moved⟩

private theorem Valid.updateProperty {m : Network} (h : n.Valid) {id : String} {key value : Value}
    (given : n.updateProperty id key value = .ok m) : m.Valid ∧ m.id = n.id := by
  apply h.updateElement ?_ given
  intro e other set
  obtain ⟨-, name, -, rfl⟩ := (e.setProperty_ok_iff key value other).mp set
  exact ⟨rfl, rfl, Element.setProperty_valid set⟩

private theorem Valid.addConnection {m : Network} (h : n.Valid) {s sp t tp : Value}
    (given : (Connection.make s sp t tp).bind n.addConnection = .ok m) :
    m.Valid ∧ m.id = n.id := by
  obtain ⟨c, -, rfl, source, target⟩ := (addConnection_values_ok_iff h s sp t tp m).mp given
  exact ⟨h.append_connection (h.connection_of_ends source target) ⟨source, target⟩, rfl⟩

theorem Valid.addElement {m : Network} (h : n.Valid) {e : Element} (he : e.Valid)
    (given : n.addElement e = .ok m) : m.Valid ∧ m.id = n.id := by
  obtain ⟨rfl, fresh⟩ := (addElement_ok_iff h e m).mp given
  exact ⟨h.append_element he fresh, rfl⟩

end Network

namespace Edit

private theorem onElement_keeps {n m : Network} {id : Value} {edit : String → Except Error Network}
    (h : n.Valid) (keeps : ∀ i m, edit i = .ok m → m.Valid ∧ m.id = n.id)
    (given : onElement n id edit = .ok m) : m.Valid ∧ m.id = n.id := by
  unfold onElement at given
  split at given
  · exact keeps _ m given
  · obtain rfl := Except.ok.inj given
    exact ⟨h, rfl⟩

/-- An edit of a valid network gives a valid network of the same id, if it gives one. -/
theorem result_valid {n m : Network} (h : n.Valid) (supply : Supply) (edit : Edit)
    (given : (edit.result n supply).1 = .ok m) : m.Valid ∧ m.id = n.id := by
  cases edit with
  | addElement request =>
    simp only [result] at given
    cases created : (Element.create request supply).1 with
    | error error =>
      rw [created] at given
      cases given
    | ok e =>
      rw [created] at given
      exact h.addElement (Element.create_valid created) given
  | removeElement id =>
    apply onElement_keeps h ?_ given
    intro i m given
    rw [Network.removeElement_eq h] at given
    obtain rfl := Except.ok.inj given
    exact ⟨h.without i, rfl⟩
  | addConnection s sp t tp => exact h.addConnection given
  | removeConnection s sp t tp =>
    have given : n.removeConnections _ = .ok m := given
    rw [Network.removeConnections_eq h] at given
    obtain rfl := Except.ok.inj given
    exact ⟨h.fewer fun c hc => (List.mem_filter.mp hc).1, rfl⟩
  | updatePosition id p =>
    apply onElement_keeps h ?_ given
    intro i m given
    exact h.updatePosition given
  | updateProperty id key value =>
    apply onElement_keeps h ?_ given
    intro i m given
    exact h.updateProperty given

/-- The network and the supply after edits one after the other; an edit that fails leaves the
network as it was. -/
def run : List Edit → Network → Supply → Network × Supply
  | [], n, supply => (n, supply)
  | edit :: rest, n, supply => match edit.result n supply with
    | (.ok m, supply) => run rest m supply
    | (.error _, supply) => run rest n supply

private theorem run_valid (edits : List Edit) {n : Network} (h : n.Valid) (supply : Supply) :
    (run edits n supply).1.Valid ∧ (run edits n supply).1.id = n.id := by
  induction edits generalizing n supply with
  | nil => exact ⟨h, rfl⟩
  | cons edit rest ih =>
    rw [run]
    split
    · rename_i m after given
      obtain ⟨valid, id⟩ := result_valid h supply edit (by rw [given])
      obtain ⟨ended, same⟩ := ih valid after
      exact ⟨ended, same.trans id⟩
    · exact ih h _

end Edit

namespace Network

variable {n : Network}

/-- What is known beforehand of the result of an edit: when it fails, and how the network that it
gives otherwise is related to what it was; that network is valid. -/
structure Foreseen (result : Except Error Network) (refused : Prop) (wanted : Network → Prop) :
    Prop where
  fails : (∃ error, result = .error error) ↔ refused
  gives : ∀ m, result = .ok m → wanted m ∧ m.Valid

private theorem foreseen_of_ok_iff {result : Except Error Network} {allowed : Prop}
    {wanted : Network → Prop} (accepted : ∀ m, result = .ok m ↔ allowed ∧ wanted m)
    (some : allowed → ∃ m, wanted m) (valid : ∀ m, result = .ok m → m.Valid) :
    Foreseen result (¬allowed) wanted := by
  refine ⟨?_, fun m given => ⟨((accepted m).mp given).2, valid m given⟩⟩
  constructor
  · rintro ⟨error, failed⟩ may
    obtain ⟨m, given⟩ := some may
    rw [(accepted m).mpr ⟨may, given⟩] at failed
    cases failed
  · intro refused
    cases result with
    | error error => exact ⟨error, rfl⟩
    | ok m => exact absurd ((accepted m).mp rfl).1 refused

private theorem foreseen_ok {m : Network} (h : m.Valid) : Foreseen (.ok m) False (· = m) := by
  refine ⟨by simp, ?_⟩
  intro m' given
  obtain rfl := Except.ok.inj given
  exact ⟨rfl, h⟩

private theorem removeElement_foreseen (h : n.Valid) (id : String) :
    Foreseen (n.removeElement id) False (· = n.without id) := by
  rw [removeElement_eq h]
  exact foreseen_ok (h.without id)

private theorem removeConnections_foreseen (h : n.Valid) (values : List Value) :
    Foreseen (n.removeConnections (Edit.matchesParts values)) False
      (· = { n with
        connections := n.connections.filter fun c =>
          values.map Value.text? ≠ c.parts.map some }) := by
  have kept : (n.connections.filter fun c => !Edit.matchesParts values c) =
      n.connections.filter fun c => values.map Value.text? ≠ c.parts.map some := by
    apply List.filter_congr
    intro c hc
    simp [Edit.matchesParts]
  rw [removeConnections_eq h, kept]
  exact foreseen_ok (h.fewer fun c hc => (List.mem_filter.mp hc).1)

private theorem addElement_foreseen (h : n.Valid) {e : Element} (he : e.Valid) :
    Foreseen (n.addElement e) (∃ d ∈ n.elements, d.id = e.id)
      (· = { n with elements := n.elements ++ [e] }) := by
  have foreseen : Foreseen (n.addElement e) (¬∀ d ∈ n.elements, d.id ≠ e.id)
      (· = { n with elements := n.elements ++ [e] }) := by
    apply foreseen_of_ok_iff fun m => (addElement_ok_iff h e m).trans and_comm
    · intro fresh
      exact ⟨_, rfl⟩
    · intro m given
      exact (h.addElement he given).1
  simpa using foreseen

private theorem addConnection_foreseen (h : n.Valid) (s sp t tp : Value) :
    Foreseen ((Connection.make s sp t tp).bind n.addConnection)
      (¬∃ c : Connection, [s, sp, t, tp] = c.parts.map .text ∧
        n.HasEnd .source c.source ∧ n.HasEnd .target c.target)
      fun m => ∃ c : Connection, [s, sp, t, tp] = c.parts.map .text ∧
        m = { n with connections := n.connections ++ [c] } := by
  have accepted := addConnection_values_ok_iff h s sp t tp
  apply foreseen_of_ok_iff (fun m => (accepted m).trans ?_)
  · rintro ⟨c, same, ends⟩
    exact ⟨_, c, same, rfl⟩
  · intro m given
    exact (h.addConnection given).1
  · constructor
    · rintro ⟨c, same, added, ends⟩
      exact ⟨⟨c, same, ends⟩, c, same, added⟩
    · rintro ⟨⟨c, same, ends⟩, d, same', added⟩
      have parts : d.parts.map Value.text = c.parts.map Value.text := same'.symm.trans same
      obtain rfl : d = c := by
        obtain ⟨⟨a, b⟩, a', b'⟩ := d
        obtain ⟨⟨x, y⟩, x', y'⟩ := c
        simpa [Connection.parts, and_assoc] using parts
      exact ⟨d, same, added, ends⟩

private theorem updatePosition_foreseen (h : n.Valid) {e : Element} (he : e ∈ n.elements)
    (p : Placement) :
    Foreseen (n.updatePosition e.id p)
      (({ e.draft with position := p } : Element.Draft).faults ≠ [])
      fun m => ∃ place, p.position? = some place ∧
        m = n.replaced e.id { e with position := place } := by
  apply foreseen_of_ok_iff (updatePosition_ok_iff h he p) ?_ fun m given => (h.updatePosition given).1
  intro none
  obtain ⟨-, -, placed, -⟩ := (Element.Draft.faults_eq_nil_iff _).mp none
  obtain ⟨place, found⟩ := Option.isSome_iff_exists.mp placed
  exact ⟨_, place, found, rfl⟩

private theorem updateProperty_foreseen (h : n.Valid) {e : Element} (he : e ∈ n.elements)
    (key value : Value) :
    Foreseen (n.updateProperty e.id key value) ((e.draftWith key value).faults ≠ [])
      fun m => ∃ name, key = .text name ∧
        m = n.replaced e.id { e with properties := e.properties.put name value } := by
  apply foreseen_of_ok_iff (updateProperty_ok_iff h he key value) ?_
    fun m given => (h.updateProperty given).1
  intro none
  obtain ⟨name, rfl⟩ := Element.key_of_draftWith none
  exact ⟨_, name, rfl, rfl⟩

/-- On valid networks an edit fails exactly when the part that is new does not fit, and otherwise
gives a valid network that differs in what was asked for and in nothing else. So any run of edits
keeps a network valid. -/
theorem edits_exact :
    (∀ n : Network, n.Valid →
      (∀ id, Foreseen (n.removeElement id) False (· = n.without id)) ∧
      (∀ s sp t tp : Value,
        Foreseen (n.removeConnections (Edit.matchesParts [s, sp, t, tp])) False
          (· = { n with
            connections := n.connections.filter fun c =>
              [s, sp, t, tp].map Value.text? ≠ c.parts.map some })) ∧
      (∀ e : Element, e.Valid →
        Foreseen (n.addElement e) (∃ d ∈ n.elements, d.id = e.id)
          (· = { n with elements := n.elements ++ [e] })) ∧
      (∀ s sp t tp : Value,
        Foreseen ((Connection.make s sp t tp).bind n.addConnection)
          (¬∃ c : Connection, [s, sp, t, tp] = c.parts.map .text ∧
            n.HasEnd .source c.source ∧ n.HasEnd .target c.target)
          fun m => ∃ c : Connection, [s, sp, t, tp] = c.parts.map .text ∧
            m = { n with connections := n.connections ++ [c] }) ∧
      (∀ e ∈ n.elements, ∀ p : Placement,
        Foreseen (n.updatePosition e.id p)
          (({ e.draft with position := p } : Element.Draft).faults ≠ [])
          fun m => ∃ place, p.position? = some place ∧
            m = n.replaced e.id { e with position := place }) ∧
      (∀ e ∈ n.elements, ∀ key value : Value,
        Foreseen (n.updateProperty e.id key value) ((e.draftWith key value).faults ≠ [])
          fun m => ∃ name, key = .text name ∧
            m = n.replaced e.id { e with properties := e.properties.put name value }) ∧
      ∀ id, (∀ e ∈ n.elements, e.id ≠ id) →
        (∀ p, n.updatePosition id p = .ok n) ∧
          ∀ key value, n.updateProperty id key value = .ok n) ∧
    ∀ (edits : List Edit) (n : Network) (supply : Supply), n.Valid →
      (Edit.run edits n supply).1.Valid ∧ (Edit.run edits n supply).1.id = n.id := by
  refine ⟨?_, fun edits n supply h => Edit.run_valid edits h supply⟩
  intro n h
  refine ⟨removeElement_foreseen h, ?_, ?_, addConnection_foreseen h, ?_, ?_, ?_⟩
  · intro s sp t tp
    exact removeConnections_foreseen h [s, sp, t, tp]
  · intro e he
    exact addElement_foreseen h he
  · intro e he p
    exact updatePosition_foreseen h he p
  · intro e he key value
    exact updateProperty_foreseen h he key value
  · intro id absent
    exact ⟨fun p => updateElement_of_not_mem absent _,
      fun key value => updateElement_of_not_mem absent _⟩

/-- On the bench a second lamp and a lamp with a number for its variable are refused, an element that
is not there is not moved, and the wire that runs the wrong way leaves the network valid. -/
theorem bench_edits :
    bench.Valid ∧
      (∃ error, bench.addElement ⟨"lamp", .not, {}, []⟩ = .error error) ∧
      (∃ error, bench.updateProperty "lamp" (.text "variable") (.int 5) = .error error) ∧
      bench.updatePosition "meter" (.coords (.int 2) (.int 2)) = .ok bench ∧
      (Edit.run
        [.addConnection (.text "switch") (.text "out") (.text "lamp") (.text "in"),
          .addConnection (.text "lamp") (.text "in") (.text "switch") (.text "out"),
          .removeElement (.text "lamp")] bench {}).1.Valid := by
  obtain ⟨-, -, added, -, -, set, absent⟩ := edits_exact.1 bench valid_bench
  refine ⟨valid_bench, ?_, ?_, ?_, ?_⟩
  · exact (added ⟨"lamp", .not, {}, []⟩ rfl).fails.mpr
      ⟨_, List.mem_cons_of_mem _ List.mem_cons_self, rfl⟩
  · exact (set ⟨"lamp", .coil, {}, []⟩ (List.mem_cons_of_mem _ List.mem_cons_self) (.text "variable")
      (.int 5)).fails.mpr (by decide)
  · exact (absent "meter" (by decide)).1 _
  · exact (edits_exact.2 _ bench {} valid_bench).1

end Network

end RungLogic
