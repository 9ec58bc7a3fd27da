import RungLogic.Proofs.Scan.Recursion
import RungLogic.Proofs.Scan.Repetition

/-!
The ideal of a scan: every element is computed once, from what the elements wired into it yield and
from the state that it had when the scan began. What the ideal yields depends neither on the order in
which elements are evaluated nor on how often they are, and in the course of a scan every evaluation
gives what the ideal yields.
-/

set_option autoImplicit false
set_option relaxedAutoImplicit false

namespace RungLogic.Scan

open Relation
open Network (Reordered)

/-- What a wire carries from an output port of an element that is in that state. -/
def portOf (state : Option ElementState) (e : Element) (port : String) (result : Signal) :
    Except Error Signal :=
  portSignal (state.toList.map fun st => (e.id, st)) e port result

private theorem portSignal_eq (states : Table ElementState) (e : Element) (port : String) (s : Signal) :
    portSignal states e port s = portOf (states.value? e.id) e port s := by
  have hstate : Table.value? e.id ((states.value? e.id).toList.map fun st => (e.id, st)) =
      states.value? e.id := by
    rcases states.value? e.id with _ | st <;> simp [Table.value?]
  simp only [portOf, portSignal, hstate]

private theorem portOf_core {state state' : Option ElementState} {e : Element}
    (h : state'.map (ElementState.core e.kind) = state.map (ElementState.core e.kind)) {port : String}
    (hport : e.kind = .timerOff → port ≠ "et") (s : Signal) :
    portOf state' e port s = portOf state e port s := by
  by_cases hkind : e.kind = .timerOff
  · simp [portOf, portSignal, hport hkind, hkind, Kind.isCounter]
  · simp only [ElementState.core_of_ne hkind, Option.map_id, id] at h
    rw [h]

mutual

/-- `Yields w begun e c`: computed once in a scan that began with the states `begun`, the element `e`
comes to `c`. -/
inductive Yields (w : Surroundings) (begun : Table ElementState) : Element → Computed → Prop
  | intro {e : Element} {inputs : Table Signal} :
      Collects w begun (wiredPorts w.network e) [] inputs →
      Yields w begun e ((compute w e inputs (begun.value? e.id)).settle e)

/-- `Collects w begun ports known inputs`: what the wires at `ports` carry, added to `known`, makes
`inputs`. -/
inductive Collects (w : Surroundings) (begun : Table ElementState) :
    List (String × PortEnd) → Table Signal → Table Signal → Prop
  | nil {inputs : Table Signal} : Collects w begun [] inputs inputs
  | cons {port : String} {r : PortEnd} {rest : List (String × PortEnd)} {source : Element}
      {c : Computed} {known inputs : Table Signal} {s t : Signal} :
      w.network.element? r.element = some source → Yields w begun source c → c.result = .ok s →
      portOf (c.leaves (begun.value? source.id)) source r.port s = .ok t →
      Collects w begun rest (known.put port t) inputs →
      Collects w begun ((port, r) :: rest) known inputs

end

variable {w w' : Surroundings} {begun : Table ElementState}

theorem Yields.unique {e : Element} {c : Computed} (h : Yields w begun e c) :
    ∀ d, Yields w begun e d → c = d := by
  refine @Yields.rec w begun (fun e c _ => ∀ d, Yields w begun e d → c = d)
    (fun ports known inputs _ => ∀ inputs', Collects w begun ports known inputs' → inputs = inputs')
    ?intro ?nil ?cons e c h
  case intro =>
    intro e inputs _ ih d hd
    cases hd with
    | intro hcollects => rw [ih _ hcollects]
  case nil =>
    intro inputs inputs' h'
    cases h'
    rfl
  case cons =>
    intro port r rest source c known inputs s t found _ hresult hport _ ihSource ihRest inputs' h'
    cases h' with
    | cons found' hsource' hresult' hport' hrest' =>
      rw [found] at found'
      obtain rfl := Option.some.inj found'
      obtain rfl := ihSource _ hsource'
      rw [hresult] at hresult'
      obtain rfl := Except.ok.inj hresult'
      rw [hport] at hport'
      obtain rfl := Except.ok.inj hport'
      exact ihRest _ hrest'

/-- What off-delay timers need so that evaluating them again does not show: they run for some time,
and nobody looks at how long they have run. -/
structure OffDelays (n : Network) : Prop where
  preset : ∀ e ∈ n.elements, e.kind = .timerOff → 0 < Preset.duration e.preset
  elapsed : ∀ c ∈ n.connections, ∀ e ∈ n.elements, e.kind = .timerOff →
    c.source.element = e.id → c.source.port ≠ "et"

/-- Surroundings in which the elements of a network compute the same: they may differ in the order of
the elements, in variables that no element consults, and in whether results are kept. -/
structure Alike (w w' : Surroundings) : Prop where
  network : Reordered w.network w'.network
  now : w'.now = w.now
  store : ∀ e ∈ w.network.elements, ∀ name, e.Consults name →
    w'.store.value? name = w.store.value? name

theorem feed?_reordered {n other : Network} (h : Reordered n other) (id port : String) :
    feed? other id port = feed? n id port := by
  simp only [feed?, h.connections]

private theorem wiredPorts_reordered {n other : Network} (h : Reordered n other) (e : Element) :
    wiredPorts other e = wiredPorts n e := by
  simp only [wiredPorts, feed?_reordered h]

/-- Of an element that has been evaluated the ideal is known, and the core of the state it has left. -/
def Done (w : Surroundings) (begun : Table ElementState) (m : Memory) (e : Element) : Prop :=
  ∃ c, Yields w begun e c ∧
    (m.states.value? e.id).map (ElementState.core e.kind) =
      (c.leaves (begun.value? e.id)).map (ElementState.core e.kind)

/-- The memory in the course of a scan: the elements with these ids have been evaluated, and all that
they read; the others are as they were. What is kept is what the ideal yields. -/
structure Midway (w : Surroundings) (begun : Table ElementState) (met : String → Prop)
    (m : Memory) : Prop where
  closed : ∀ a b, met a → Reads w.network a b → met b
  done : ∀ e ∈ w.network.elements, met e.id → Done w begun m e
  fresh : ∀ e ∈ w.network.elements, ¬ met e.id →
    (m.states.value? e.id).map (ElementState.core e.kind) =
      (begun.value? e.id).map (ElementState.core e.kind)
  kept : ∀ e ∈ w.network.elements, ∀ s, m.kept.value? e.id = some s →
    met e.id ∧ ∃ c, Yields w begun e c ∧ c.result = .ok s

theorem Midway.congr {met met' : String → Prop} {m : Memory} (h : Midway w begun met m)
    (same : ∀ id, met' id ↔ met id) : Midway w begun met' m := by
  obtain rfl : met' = met := funext fun id => propext (same id)
  exact h

private theorem Midway.met_of_path {met : String → Prop} {m : Memory} (h : Midway w begun met m)
    {a b : String} (ha : met a) (path : ReflTransGen (Reads w.network) a b) : met b := by
  induction path with
  | refl => exact ha
  | tail _ step ih => exact h.closed _ _ ih step

private theorem Computed.leaves_congr {k : Kind} {state state' : Option ElementState}
    (h : state'.map (ElementState.core k) = state.map (ElementState.core k)) (c : Computed) :
    (c.leaves state').map (ElementState.core k) = (c.leaves state).map (ElementState.core k) := by
  simp only [Computed.leaves, Option.map_or, h]

private theorem fst_apply (w : Surroundings) (e : Element) (inputs : Table Signal) (m : Memory) :
    (apply w e inputs m).1 = (computed w e inputs m).result := by
  rcases h : (computed w e inputs m).result with fault | s
  · rw [computed] at h
    simp only [apply, h]
  · rw [apply_of_result h]

def Wired (n : Network) (r : PortEnd) : Prop := ∃ c ∈ n.connections, c.source = r

theorem wired_of_feed? {n : Network} {id port : String} {r : PortEnd}
    (h : feed? n id port = some r) : Wired n r :=
  ⟨_, mem_connections_of_feed? h, rfl⟩

private theorem wired_of_mem {n : Network} {e : Element} {p : String × PortEnd}
    (h : p ∈ wiredPorts n e) : Wired n p.2 :=
  wired_of_feed? (mem_pending_fresh.mp h).2

private theorem OffDelays.port_ne {n : Network} (h : OffDelays n) {r : PortEnd} (wired : Wired n r)
    {e : Element} (he : e ∈ n.elements) (hid : e.id = r.element) (hkind : e.kind = .timerOff) :
    r.port ≠ "et" := by
  obtain ⟨c, hc, rfl⟩ := wired
  exact h.elapsed c hc e he hkind hid.symm

private theorem path_iff {n : Network} (coherent : n.Coherent) {e : Element} (he : e ∈ n.elements)
    {id : String} : ReflTransGen (Reads n) e.id id ↔
      id = e.id ∨ ∃ p ∈ wiredPorts n e, ReflTransGen (Reads n) p.2.element id := by
  constructor
  · intro path
    rcases path.cases_head with same | ⟨b, link, rest⟩
    · exact .inl same.symm
    · obtain ⟨p, hp, rfl⟩ := (reads_iff coherent he).mp link
      exact .inr ⟨p, hp, rest⟩
  · rintro (rfl | ⟨p, hp, rest⟩)
    · exact .refl
    · exact .head (reads_pending coherent he hp) rest

/-- What a wire from an evaluated element carries is what the ideal has it carry. -/
theorem Midway.carries {met : String → Prop} {m : Memory} (h : Midway w begun met m)
    (delays : OffDelays w.network) {e : Element} (he : e ∈ w.network.elements) (hmet : met e.id)
    {c : Computed} (hc : Yields w begun e c) {r : PortEnd} (hid : e.id = r.element)
    (wired : Wired w.network r) {s t : Signal}
    (hport : portSignal m.states e r.port s = .ok t) :
    portOf (c.leaves (begun.value? e.id)) e r.port s = .ok t := by
  obtain ⟨d, hd, hstate⟩ := h.done e he hmet
  obtain rfl := hd.unique c hc
  have hne : e.kind = .timerOff → r.port ≠ "et" := delays.port_ne wired he hid
  rw [← portOf_core hstate hne, ← portSignal_eq, hport]

section

variable {i : Int} (hnow : w.now = .int i) (delays : OffDelays w.network) (alike : Alike w w')
  (coherent : w.network.Coherent)

include hnow delays alike

/-- Computed in the course of a scan, an element comes to what the ideal yields, whether it has been
evaluated before or not. -/
private theorem Midway.computed {met : String → Prop} {m : Memory} (h : Midway w begun met m) {e : Element}
    (he : e ∈ w.network.elements) {inputs : Table Signal}
    (collects : Collects w begun (wiredPorts w.network e) [] inputs) :
    let c := (compute w e inputs (begun.value? e.id)).settle e
    let now := computed w' e inputs m
    now.result = c.result ∧
      (now.leaves (m.states.value? e.id)).map (ElementState.core e.kind) =
        (c.leaves (begun.value? e.id)).map (ElementState.core e.kind) := by
  intro c now
  have hcompute : now = (compute w e inputs (m.states.value? e.id)).settle e := by
    simp only [now, Scan.computed, compute_congr alike.now (alike.store e he)]
  by_cases hmet : met e.id
  -- An element that was evaluated before is computed again, from the state that this has left.
  · obtain ⟨d, hd, hstate⟩ := h.done e he hmet
    obtain rfl : d = c := hd.unique c (.intro collects)
    rw [compute_of_core hstate] at hcompute
    obtain ⟨hresult, hleaves⟩ := settle_again hnow (delays.preset e he) inputs (begun.value? e.id)
    rw [← hcompute] at hresult hleaves
    exact ⟨hresult, (Computed.leaves_congr hstate now).trans hleaves⟩
  · have hstate := h.fresh e he hmet
    rw [compute_of_core hstate] at hcompute
    rw [hcompute]
    exact ⟨rfl, Computed.leaves_congr hstate c⟩

include coherent

private theorem Midway.apply {met : String → Prop} {m m' : Memory} (h : Midway w begun met m) {e : Element}
    (he : e ∈ w.network.elements) {inputs : Table Signal} {s : Signal}
    (collects : Collects w begun (wiredPorts w.network e) [] inputs)
    (read : ∀ b, Reads w.network e.id b → met b) (happly : apply w' e inputs m = (.ok s, m')) :
    (∃ c, Yields w begun e c ∧ c.result = .ok s) ∧
      Midway w begun (fun id => met id ∨ id = e.id) m' := by
  obtain ⟨hresult, hleaves⟩ := h.computed hnow delays alike he collects
  have hs : (Scan.computed w' e inputs m).result = .ok s := by rw [← fst_apply, happly]
  have hm : (Scan.apply w' e inputs m).2 = m' := by rw [happly]
  have yields : Yields w begun e ((compute w e inputs (begun.value? e.id)).settle e) :=
    .intro collects
  have hstates : ∀ other, m'.states.value? other =
      if other = e.id then (Scan.computed w' e inputs m).leaves (m.states.value? e.id)
      else m.states.value? other := by
    intro other
    rw [← hm, states_apply, states_remember]
    rfl
  refine ⟨⟨_, yields, hresult ▸ hs⟩, ?closed, ?done, ?fresh, ?kept⟩
  case closed =>
    rintro a b (ha | rfl) link
    · exact .inl (h.closed a b ha link)
    · exact .inl (read b link)
  case done =>
    intro d hd hmet
    by_cases hid : d.id = e.id
    · obtain rfl := coherent.eq_of_id hd he hid
      refine ⟨_, yields, ?_⟩
      rw [hstates, if_pos rfl, hleaves]
    · obtain ⟨c, hc, hstate⟩ := h.done d hd (hmet.resolve_right hid)
      exact ⟨c, hc, by rw [hstates, if_neg hid, hstate]⟩
  case fresh =>
    intro d hd hmet
    obtain ⟨hmet, hid⟩ := not_or.mp hmet
    rw [hstates, if_neg hid]
    exact h.fresh d hd hmet
  case kept =>
    intro d hd t ht
    rw [← hm] at ht
    rcases kept_apply ht with ⟨hid, ht⟩ | ht
    · obtain rfl := coherent.eq_of_id hd he hid
      rw [fst_apply, hresult] at ht
      exact ⟨.inr rfl, _, yields, ht⟩
    · obtain ⟨hmet, hyields⟩ := h.kept d hd t ht
      exact ⟨.inl hmet, hyields⟩

/-- In the course of a scan an evaluation gives what the ideal yields. The induction is on the
evaluation, for any elements that have been evaluated before. -/
theorem Midway.evaluates {e : Element} {m m' : Memory} {s : Signal} (h : Evaluates w' e m s m') :
    e ∈ w.network.elements → ∀ met, Midway w begun met m →
      (∃ c, Yields w begun e c ∧ c.result = .ok s) ∧
        Midway w begun (fun id => met id ∨ ReflTransGen (Reads w.network) e.id id) m' := by
  refine @Evaluates.rec w'
    (fun e m s m' _ => e ∈ w.network.elements → ∀ met, Midway w begun met m →
      (∃ c, Yields w begun e c ∧ c.result = .ok s) ∧
        Midway w begun (fun id => met id ∨ ReflTransGen (Reads w.network) e.id id) m')
    (fun ports known m inputs m' _ => (∀ p ∈ ports, Wired w.network p.2) →
      ∀ met, Midway w begun met m → Collects w begun ports known inputs ∧
        Midway w begun (fun id => met id ∨
          ∃ p ∈ ports, ReflTransGen (Reads w.network) p.2.element id) m')
    ?kept ?applied ?nil ?cons e m s m' h
  case kept =>
    intro e m s hkept he met midway
    have hvalue := value?_of_keptSignal? hkept
    obtain ⟨hmet, hyields⟩ := midway.kept e he s hvalue
    refine ⟨hyields, midway.congr fun id => ?_⟩
    exact or_iff_left_of_imp (midway.met_of_path hmet)
  case applied =>
    intro e m m₁ m₂ inputs s _ _ happly ih he met midway
    rw [wiredPorts_reordered alike.network] at ih
    obtain ⟨collects, midway₁⟩ := ih (fun p hp => wired_of_mem hp) met midway
    have read : ∀ b, Reads w.network e.id b →
        met b ∨ ∃ p ∈ wiredPorts w.network e, ReflTransGen (Reads w.network) p.2.element b := by
      intro b link
      obtain ⟨p, hp, rfl⟩ := (reads_iff coherent he).mp link
      exact .inr ⟨p, hp, .refl⟩
    obtain ⟨hyields, midway₂⟩ := midway₁.apply hnow delays alike coherent he collects read happly
    refine ⟨hyields, midway₂.congr fun id => ?_⟩
    rw [path_iff coherent he, or_assoc, or_comm (a := id = e.id)]
  case nil =>
    intro inputs m _ met midway
    refine ⟨.nil, midway.congr fun id => ?_⟩
    simp
  case cons =>
    intro port r rest source known inputs m m₁ m₂ s t found _ hport _ ihSource ihRest wired met midway
    rw [alike.network.element? coherent] at found
    have he := Network.mem_of_element? found
    have hid := Network.id_of_element? found
    obtain ⟨⟨c, hyields, hresult⟩, midway₁⟩ := ihSource he met midway
    have hcarried := midway₁.carries delays he (.inr .refl) hyields hid (wired _ List.mem_cons_self)
      hport
    obtain ⟨collects, midway₂⟩ := ihRest (fun p hp => wired p (List.mem_cons_of_mem _ hp)) _ midway₁
    refine ⟨.cons found hyields hresult hcarried collects, midway₂.congr fun id => ?_⟩
    simp only [List.mem_cons, exists_eq_or_imp, hid, or_assoc]

end

end RungLogic.Scan
