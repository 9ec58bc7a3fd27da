import Mathlib.Data.List.Forall2
import RungLogic.Proofs.Scan.CycleDetection
import RungLogic.Proofs.Scan.Repetition

/-!
Twins: two networks that differ in ids, in positions and in how presets and operands are written.
Their elements compute the same, so an evaluation goes through both in step and gives the same
signal.
-/

set_option autoImplicit false
set_option relaxedAutoImplicit false

namespace RungLogic

/-- Elements that compute the same, whatever their ids: they are of one kind, and what that kind
looks at means the same for both. -/
structure Element.Twin (e d : Element) : Prop where
  kind : d.kind = e.kind
  reference : e.kind.isContact = true ∨ e.kind.isCoil = true → d.reference? = e.reference?
  duration : e.kind.isTimer = true → Preset.duration d.preset = Preset.duration e.preset
  count : e.kind.isCounter = true → Preset.count d.preset = Preset.count e.preset
  operand : e.kind.takesOperand = true → ∀ store inputs,
    (Scan.secondSide store d inputs).1 = (Scan.secondSide store e inputs).1

def PortEnd.renamed (rename : String → String) (r : PortEnd) : PortEnd := ⟨rename r.element, r.port⟩

def Connection.renamed (rename : String → String) (c : Connection) : Connection :=
  ⟨c.source.renamed rename, c.target.renamed rename⟩

/-- Networks whose elements are twins one by one, with the same wires under other ids. -/
structure Network.Twins (rename : String → String) (n n' : Network) : Prop where
  elements : List.Forall₂ (fun e d => e.Twin d ∧ d.id = rename e.id) n.elements n'.elements
  connections : n'.connections = n.connections.map (Connection.renamed rename)

namespace Scan

/-- Evaluations with the same variables, clock reading and choice to keep results. -/
structure Surroundings.Agree (w w' : Surroundings) : Prop where
  store : w'.store = w.store
  now : w'.now = w.now
  memoize : w'.memoize = w.memoize

variable {w w' : Surroundings} {e d : Element}

private theorem contactOn_twin (twin : e.Twin d) (hkind : e.kind.isContact = true) (store : Store) :
    contactOn store d = contactOn store e := by
  simp only [contactOn, twin.reference (.inl hkind)]

private theorem timerOn_twin (twin : e.Twin d) (hkind : e.kind.isTimer = true) (now : Number)
    (inputs : Table Signal) (state : Option ElementState) :
    timerOn now d inputs state = timerOn now e inputs state := by
  simp only [timerOn, twin.duration hkind]

private theorem timerOff_twin (twin : e.Twin d) (hkind : e.kind.isTimer = true) (now : Number)
    (inputs : Table Signal) (state : Option ElementState) :
    timerOff now d inputs state = timerOff now e inputs state := by
  simp only [timerOff, twin.duration hkind]

/-- The parts of what is computed that an evaluation goes on with. -/
def Computed.effect (c : Computed) : Except Error Signal × Option ElementState := (c.result, c.state)

private theorem effect_counter (set : Bool) (fresh : Counter) (step : Counter → Counter × Bool)
    (state : Option ElementState) :
    (counter d set fresh step state).effect = (counter e set fresh step state).effect := by
  rcases state with _ | ⟨t⟩ | ⟨c⟩
  · rfl
  · cases set <;> rfl
  · rfl

private theorem effect_twoSided (twin : e.Twin d) (hkind : e.kind.takesOperand = true) (store : Store)
    (inputs : Table Signal) (f : Signal → Signal → Except Error Signal × List Notice) :
    (twoSided store d inputs f).effect = (twoSided store e inputs f).effect := by
  simp only [Computed.effect, twoSided, twin.operand hkind]

private theorem effect_compute (agree : w.Agree w') (twin : e.Twin d) (inputs : Table Signal)
    (state : Option ElementState) :
    (compute w' d inputs state).effect = (compute w e inputs state).effect := by
  have counts : e.kind.isCounter = true → Preset.count d.preset = Preset.count e.preset := twin.count
  have blocks := effect_twoSided twin
  unfold compute
  rw [twin.kind, agree.store, agree.now]
  cases hkind : e.kind with
  | contact | contactNegated =>
    simp only [contactOn_twin twin (by rw [hkind]; rfl)]
  | timerOn => simp only [timerOn_twin twin (by rw [hkind]; rfl)]
  | timerOff => simp only [timerOff_twin twin (by rw [hkind]; rfl)]
  | counterUp =>
    simp only [counterUp, counts (by rw [hkind]; rfl)]
    exact effect_counter _ _ _ _
  | counterDown =>
    simp only [counterDown, counts (by rw [hkind]; rfl)]
    exact effect_counter _ _ _ _
  | add | subtract | multiply | divide | greaterThan | greaterEqual | equal | notEqual | lessEqual
  | lessThan => exact blocks (by rw [hkind]; rfl) _ _ _
  | _ => rfl

private theorem effect_settle {c c' : Computed} (h : c'.effect = c.effect) :
    (c'.settle d).effect = (c.settle e).effect := by
  obtain ⟨hresult, hstate⟩ := Prod.mk.inj h
  unfold Computed.settle
  rw [hresult]
  split
  · rfl
  · exact h

end Scan

namespace Network.Twins

variable {rename : String → String} {n n' : Network}

private theorem ids (h : n.Twins rename n') : n'.elements.map Element.id =
    (n.elements.map Element.id).map rename := by
  have elements := h.elements
  generalize n.elements = es at elements
  generalize n'.elements = ds at elements
  induction elements with
  | nil => rfl
  | cons head _ ih => simp only [List.map_cons, head.2, ih]

private theorem injective (h : n.Twins rename n') (coherent : n'.Coherent) {e d : Element}
    (he : e ∈ n.elements) (hd : d ∈ n.elements) (same : rename d.id = rename e.id) :
    d.id = e.id := by
  have nodup := coherent.nodup
  rw [h.ids] at nodup
  exact List.inj_on_of_nodup_map nodup (List.mem_map_of_mem hd) (List.mem_map_of_mem he) same

private theorem exists_twin (h : n.Twins rename n') {e : Element} (he : e ∈ n.elements) :
    ∃ d ∈ n'.elements, e.Twin d ∧ d.id = rename e.id := by
  have elements := h.elements
  generalize n.elements = es at elements he
  generalize n'.elements = ds at elements
  induction elements with
  | nil => cases he
  | cons head _ ih =>
    rcases List.mem_cons.mp he with rfl | he
    · exact ⟨_, List.mem_cons_self, head⟩
    · obtain ⟨d, hd, twin⟩ := ih he
      exact ⟨d, List.mem_cons_of_mem _ hd, twin⟩

private theorem element? (h : n.Twins rename n') (coherent : n'.Coherent) {id : String} {e : Element}
    (found : n.element? id = some e) :
    ∃ d, n'.element? (rename id) = some d ∧ e.Twin d ∧ d.id = rename e.id := by
  obtain ⟨d, hd, twin, hid⟩ := h.exists_twin (mem_of_element? found)
  refine ⟨d, ?_, twin, hid⟩
  rw [← id_of_element? found, ← hid]
  exact coherent.element?_of_mem hd

theorem feed? (h : n.Twins rename n') (coherent : n.Coherent) (coherent' : n'.Coherent) {e : Element}
    (he : e ∈ n.elements) (port : String) :
    Scan.feed? n' (rename e.id) port = (Scan.feed? n e.id port).map (PortEnd.renamed rename) := by
  have same : ∀ c ∈ n.connections, (rename c.target.element = rename e.id ↔
      c.target.element = e.id) := by
    intro c hc
    obtain ⟨t, ht, hid, -⟩ := coherent.target c hc
    rw [← hid]
    exact ⟨h.injective coherent' he ht, congrArg rename⟩
  have find : (n'.connections.find? fun c => c.target.element = rename e.id && c.target.port = port) =
      (n.connections.find? fun c => c.target.element = e.id && c.target.port = port).map
        (Connection.renamed rename) := by
    rw [h.connections, List.find?_map, ← List.head?_filter, ← List.head?_filter]
    refine congrArg (fun cs : List Connection => cs.head?.map (Connection.renamed rename)) ?_
    refine List.filter_congr fun c hc => ?_
    have target : decide (rename c.target.element = rename e.id) =
        decide (c.target.element = e.id) := decide_eq_decide.mpr (same c hc)
    show (decide (rename c.target.element = rename e.id) && decide (c.target.port = port)) = _
    rw [target]
  rw [Scan.feed?, Scan.feed?, find, Option.map_map, Option.map_map]
  rfl

private theorem reads (h : n.Twins rename n') (coherent : n.Coherent) (coherent' : n'.Coherent)
    {a b : String} (link : Scan.Reads n a b) : Scan.Reads n' (rename a) (rename b) := by
  obtain ⟨e, port, r, found, hport, hr, rfl⟩ := link
  obtain ⟨d, found', twin, -⟩ := h.element? coherent' found
  refine ⟨d, port, r.renamed rename, found', twin.kind ▸ hport, ?_, rfl⟩
  have he := mem_of_element? found
  rw [← id_of_element? found] at hr ⊢
  rw [h.feed? coherent coherent' he, hr]
  rfl

private theorem not_reachesCycle (h : n.Twins rename n') (coherent : n.Coherent) (coherent' : n'.Coherent)
    (acyclic : ∀ id, ¬ Scan.ReachesCycle n' id) (id : String) : ¬ Scan.ReachesCycle n id := by
  rintro ⟨b, path, cycle⟩
  have link : ∀ a b, Scan.Reads n a b → Scan.Reads n' (rename a) (rename b) :=
    fun a b => h.reads coherent coherent'
  exact acyclic (rename id) ⟨rename b, path.lift rename link, cycle.lift rename link⟩

end Network.Twins

namespace Scan

open Network (Twins)

/-- Memories that hold the same for the elements of a network and for their twins. -/
structure Mirror (rename : String → String) (n : Network) (m m' : Memory) : Prop where
  states : ∀ e ∈ n.elements, m'.states.value? (rename e.id) = m.states.value? e.id
  kept : ∀ e ∈ n.elements, m'.kept.value? (rename e.id) = m.kept.value? e.id

variable {rename : String → String} {w w' : Surroundings} {e d : Element} {m m' m₁ : Memory}

private theorem value?_put_twin {α : Type} {n n' : Network} (twins : n.Twins rename n')
    (coherent' : n'.Coherent) (he : e ∈ n.elements) {t t' : Table α}
    (h : ∀ e ∈ n.elements, t'.value? (rename e.id) = t.value? e.id) (a : α) :
    ∀ d ∈ n.elements, (Table.put (rename e.id) a t').value? (rename d.id) =
      (Table.put e.id a t).value? d.id := by
  intro d hd
  have same : rename e.id = rename d.id ↔ e.id = d.id :=
    ⟨twins.injective coherent' hd he, congrArg rename⟩
  simp only [Table.value?_put, same, h d hd]

private theorem kept_of_result {inputs : Table Signal} {s : Signal}
    (h : (computed w e inputs m).result = .ok s) :
    (apply w e inputs m).2.kept =
      if w.memoize && e.kind.isStateful then m.kept.put e.id s else m.kept := by
  have remembered : ∀ state, (m.remember e.id state).kept = m.kept := by
    intro state
    cases state <;> rfl
  rw [apply_of_result h, Memory.record, Memory.keep]
  split
  · simp only [Memory.say, remembered]
  · simp only [Memory.say, remembered]

/-- Twins, applied to the same inputs with memories that mirror each other, give the same signal and
leave memories that mirror each other. -/
private theorem apply_twin (agree : w.Agree w') (twins : w.network.Twins rename w'.network)
    (coherent' : w'.network.Coherent) (he : e ∈ w.network.elements) (twin : e.Twin d)
    (hid : d.id = rename e.id) (mirror : Mirror rename w.network m m') {inputs : Table Signal}
    {s : Signal} (h : apply w e inputs m = (.ok s, m₁)) :
    ∃ m₁', apply w' d inputs m' = (.ok s, m₁') ∧ Mirror rename w.network m₁ m₁' := by
  have same : (computed w' d inputs m').effect = (computed w e inputs m).effect := by
    refine effect_settle ?_
    rw [hid, mirror.states e he]
    exact effect_compute agree twin inputs _
  obtain ⟨hresult, hstate⟩ := Prod.mk.inj same
  have result : (computed w e inputs m).result = .ok s := by
    rcases hcase : (computed w e inputs m).result with fault | t
    · rw [computed] at hcase
      simp only [apply, hcase] at h
      cases h
    · rw [apply_of_result hcase] at h
      exact congrArg Except.ok (Except.ok.inj (Prod.mk.inj h).1)
  rw [result] at hresult
  have memory : m₁ = (apply w e inputs m).2 := by rw [h]
  refine ⟨(apply w' d inputs m').2, ?_, ?_, ?_⟩
  · rw [apply_of_result hresult]
  · intro b hb
    have sameId : rename b.id = rename e.id ↔ b.id = e.id :=
      ⟨twins.injective coherent' he hb, congrArg rename⟩
    rw [memory, states_apply, states_apply, states_remember, states_remember, hid, hstate,
      mirror.states e he, mirror.states b hb]
    simp only [sameId]
  · rw [memory, kept_of_result result, kept_of_result hresult, agree.memoize, twin.kind, hid]
    split
    · exact value?_put_twin twins coherent' he mirror.kept s
    · exact mirror.kept

private theorem keptSignal?_twin (agree : w.Agree w') (he : e ∈ w.network.elements) (twin : e.Twin d)
    (hid : d.id = rename e.id) (mirror : Mirror rename w.network m m') :
    m'.keptSignal? w' d = m.keptSignal? w e := by
  rw [Memory.keptSignal?, Memory.keptSignal?, agree.memoize, twin.kind, hid, mirror.kept e he]

private theorem portSignal_twin (he : e ∈ w.network.elements) (twin : e.Twin d)
    (hid : d.id = rename e.id) (mirror : Mirror rename w.network m m') (port : String) (s : Signal) :
    portSignal m'.states d port s = portSignal m.states e port s := by
  rw [portSignal, portSignal, twin.kind, hid, mirror.states e he]

def renamedPorts (rename : String → String) (ports : List (String × PortEnd)) :
    List (String × PortEnd) := ports.map fun p => (p.1, p.2.renamed rename)

private theorem wiredPorts_twin {n n' : Network} (twins : n.Twins rename n') (coherent : n.Coherent)
    (coherent' : n'.Coherent) (he : e ∈ n.elements) (twin : e.Twin d) (hid : d.id = rename e.id) :
    wiredPorts n' d = renamedPorts rename (wiredPorts n e) := by
  rw [wiredPorts, wiredPorts, renamedPorts, List.map_filterMap, twin.kind, hid]
  refine List.filterMap_congr fun port _ => ?_
  rw [twins.feed? coherent coherent' he, Option.map_map, Option.map_map]
  rfl

/-- Recursion goes through twins in step. The induction is on the evaluation; the memories mirror
each other all along. -/
private theorem Evaluates.twin (agree : w.Agree w') (twins : w.network.Twins rename w'.network)
    (coherent : w.network.Coherent) (coherent' : w'.network.Coherent) {s : Signal}
    (h : Evaluates w e m s m₁) : ∀ (d : Element) (m' : Memory), e ∈ w.network.elements → e.Twin d →
      d.id = rename e.id → Mirror rename w.network m m' →
      ∃ m₁', Evaluates w' d m' s m₁' ∧ Mirror rename w.network m₁ m₁' := by
  refine @Evaluates.rec w
    (fun e m s m₁ _ => ∀ d m', e ∈ w.network.elements → e.Twin d → d.id = rename e.id →
      Mirror rename w.network m m' →
      ∃ m₁', Evaluates w' d m' s m₁' ∧ Mirror rename w.network m₁ m₁')
    (fun ports known m inputs m₁ _ => ∀ m', Mirror rename w.network m m' →
      ∃ m₁', Gathers w' (renamedPorts rename ports) known m' inputs m₁' ∧
        Mirror rename w.network m₁ m₁')
    ?kept ?applied ?nil ?cons e m s m₁ h
  case kept =>
    intro e m s hkept d m' he twin hid mirror
    rw [← keptSignal?_twin agree he twin hid mirror] at hkept
    exact ⟨m', .kept hkept, mirror⟩
  case applied =>
    intro e m m₁ m₂ inputs s hnone _ happly ih d m' he twin hid mirror
    obtain ⟨m₁', gathers, mirror₁⟩ := ih m' mirror
    obtain ⟨m₂', happly', mirror₂⟩ := apply_twin agree twins coherent' he twin hid mirror₁ happly
    rw [← keptSignal?_twin agree he twin hid mirror] at hnone
    rw [← wiredPorts_twin twins coherent coherent' he twin hid] at gathers
    exact ⟨m₂', .applied hnone gathers happly', mirror₂⟩
  case nil =>
    intro inputs m m' mirror
    exact ⟨m', .nil, mirror⟩
  case cons =>
    intro port r rest source known inputs m m₁ m₂ s t found _ hport _ ihSource ihRest m' mirror
    have hsource := Network.mem_of_element? found
    obtain ⟨source', found', twin, hid⟩ := twins.element? coherent' found
    obtain ⟨m₁', evaluates, mirror₁⟩ := ihSource source' m' hsource twin hid mirror
    obtain ⟨m₂', gathers, mirror₂⟩ := ihRest m₁' mirror₁
    rw [← portSignal_twin hsource twin hid mirror₁] at hport
    exact ⟨m₂', .cons found' evaluates hport gathers, mirror₂⟩

/-- Memories that mirror each other, with states that are consistent in both networks. -/
structure Paired (rename : String → String) (n n' : Network) (m m' : Memory) : Prop
    extends Mirror rename n m m' where
  left : Consistent n m.states
  right : Consistent n' m'.states

theorem readPort_twin (agree : w.Agree w') (twins : w.network.Twins rename w'.network)
    (coherent : w.network.Coherent) (coherent' : w'.network.Coherent)
    (acyclic : ∀ id, ¬ ReachesCycle w'.network id) {r : PortEnd} {source : Element}
    (found : w.network.element? r.element = some source)
    (paired : Paired rename w.network w'.network m m') :
    ∃ s m₁ m₁', readPort w r m = (.ok s, m₁) ∧ readPort w' (r.renamed rename) m' = (.ok s, m₁') ∧
      Paired rename w.network w'.network m₁ m₁' := by
  have hsource := Network.mem_of_element? found
  obtain ⟨source', found', twin, hid⟩ := twins.element? coherent' found
  have hsource' := Network.mem_of_element? found'
  have acyclic' := twins.not_reachesCycle coherent coherent' acyclic source.id
  obtain ⟨s, m₁, heval⟩ := exists_evaluate_ok coherent hsource acyclic' paired.left
  obtain ⟨m₁', evaluates, mirror⟩ := (evaluates_of_evaluate heval).twin agree twins coherent
    coherent' source' m' hsource twin hid paired.toMirror
  have heval' := (evaluate_iff coherent' hsource' (acyclic source'.id) paired.right).mpr evaluates
  have left := paired.left.evaluate coherent hsource
  have right := paired.right.evaluate coherent' hsource'
  rw [heval] at left
  rw [heval'] at right
  obtain ⟨t, ht⟩ := left.exists_portSignal hsource r.port s
  refine ⟨t, m₁, m₁', ?_, ?_, mirror, left, right⟩
  · simp only [readPort, found, heval, ht]
  · have ht' : portSignal m₁'.states source' (r.renamed rename).port s = .ok t := by
      rw [portSignal_twin hsource twin hid mirror]
      exact ht
    have found'' : w'.network.element? (r.renamed rename).element = some source' := found'
    simp only [readPort, found'', heval', ht']

end Scan

end RungLogic
