import RungLogic.Proofs.Scan.Consistency

/-!
Failing descents: reading the ports of an element of a coherent network fails with a loop of read
links, and the loop is what the error shows, or because a state is of the other sort. While states are
consistent, a loop is the only way.
-/

set_option autoImplicit false
set_option relaxedAutoImplicit false

namespace RungLogic.Scan

variable {n : Network}

private theorem snd_arrive (source : Element) (port : String) (o : Except Error Signal × Memory) :
    (arrive source port o).2 = o.2 := by
  rcases o with ⟨fault | s, m⟩ <;> rfl

/-- What no application of certain elements breaks, which lead by read links to their like only. -/
structure Invariant (w : Surroundings) (among : Element → Prop) (P : Memory → Prop) : Prop where
  apply : ∀ e ∈ w.network.elements, among e → ∀ inputs m, P m → P (apply w e inputs m).2
  closed : ∀ e ∈ w.network.elements, among e → ∀ p ∈ (Frame.fresh w.network e).pending,
    ∀ source, w.network.element? p.2.element = some source → among source

namespace Invariant

variable {w : Surroundings} {among : Element → Prop} {P : Memory → Prop} {m m₁ : Memory} {e : Element}

private theorem of_arrive (inv : Invariant w among P) (he : e ∈ w.network.elements) (hamong : among e)
    {port : String} {o : Except Error (Table Signal) × Memory} {result : Except Error Signal}
    (arrived : arrive e port (keptOr w e m (applyTo w e o)) = (result, m₁)) (h : P m) (ho : P o.2) :
    P m₁ := by
  have hm : (keptOr w e m (applyTo w e o)).2 = m₁ := by rw [← snd_arrive e port, arrived]
  rw [← hm, keptOr]
  split
  · exact h
  · rcases o with ⟨fault | inputs, m₂⟩
    · exact ho
    · exact inv.apply e he hamong inputs m₂ ho

/-- Evaluations only apply elements, so that they break nothing that applications do not break. -/
private theorem gather (inv : Invariant w among P) (h : P m) (up : List String)
    {ports : List (String × PortEnd)} (sources : ∀ p ∈ ports, ∀ source,
      w.network.element? p.2.element = some source → among source) (inputs : Table Signal) :
    P (gather w up ports inputs m).2 := by
  fun_induction Scan.gather w up ports inputs m with
  | case1 | case2 | case3 => exact h
  | case4 up inputs m port r rest source found closed _ s m₁ arrived ihSource ihRest =>
    obtain ⟨first, others⟩ := List.forall_mem_cons.mp sources
    have he := Network.mem_of_element? found
    have hamong := first source found
    exact ihRest (inv.of_arrive he hamong arrived h (ihSource h (inv.closed source he hamong))) others
  | case5 up inputs m port r rest source found closed _ fault m₁ arrived ihSource =>
    have he := Network.mem_of_element? found
    have hamong := sources _ List.mem_cons_self source found
    exact inv.of_arrive he hamong arrived h (ihSource h (inv.closed source he hamong))

theorem evaluate (inv : Invariant w among P) (he : e ∈ w.network.elements) (hamong : among e)
    (h : P m) : P (evaluate w e m).2 := by
  rw [evaluate_eq_descend, descend, ← snd_arrive e e.kind.primaryOutput]
  exact inv.of_arrive he hamong rfl h (inv.gather h _ (inv.closed e he hamong) _)

end Invariant

private theorem consistent_invariant {w : Surroundings} (coherent : w.network.Coherent) :
    Invariant w (fun _ => True) fun m => Consistent w.network m.states :=
  ⟨fun _ he _ inputs _ h => h.apply coherent he inputs, fun _ _ _ _ _ _ _ => trivial⟩

private theorem Consistent.gather {w : Surroundings} (coherent : w.network.Coherent) {m : Memory}
    (h : Consistent w.network m.states) (up : List String) (ports : List (String × PortEnd))
    (inputs : Table Signal) : Consistent w.network (gather w up ports inputs m).2.states :=
  (consistent_invariant coherent).gather h up (fun _ _ _ _ => trivial) inputs

theorem Consistent.evaluate {w : Surroundings} (coherent : w.network.Coherent) {m : Memory}
    (h : Consistent w.network m.states) {e : Element} (he : e ∈ w.network.elements) :
    Consistent w.network (evaluate w e m).2.states :=
  (consistent_invariant coherent).evaluate he trivial h

/-- The open ids, from the innermost out, are all different, and each is read by the next. -/
structure OpenPath (n : Network) (up : List String) (top : String) : Prop where
  head : up.head? = some top
  nodup : up.Nodup
  chain : up.reverse.IsChain (Reads n)

private theorem openPath_singleton (id : String) : OpenPath n [id] id :=
  ⟨rfl, List.nodup_singleton id, .singleton id⟩

private theorem OpenPath.last {up : List String} {top : String} (h : OpenPath n up top) :
    up.reverse.getLast? = some top := by
  rw [List.getLast?_reverse, h.head]

private theorem OpenPath.cons {up : List String} {top id : String} (h : OpenPath n up top)
    (link : Reads n top id) (closed : id ∉ up) : OpenPath n (id :: up) id := by
  refine ⟨rfl, List.nodup_cons.mpr ⟨closed, h.nodup⟩, ?_⟩
  rw [List.reverse_cons]
  refine h.chain.append (.singleton id) ?_
  intro a ha b hb
  rw [h.last] at ha
  cases ha
  cases hb
  exact link

private theorem OpenPath.loop {up : List String} {top id : String} (h : OpenPath n up top)
    (link : Reads n top id) (opened : id ∈ up) : IsLoop n (loopBack up id) :=
  isLoop_of_link ((List.reverse_perm up).nodup_iff.mpr h.nodup) h.chain h.last
    (List.mem_reverse.mpr opened) link

private theorem Reads.element? {a b : String} (h : Reads n a b) (coherent : n.Coherent) :
    ∃ e, n.element? b = some e := by
  obtain ⟨e, port, r, -, -, hr, rfl⟩ := h
  obtain ⟨source, -, found, -⟩ := exists_source coherent hr
  exact ⟨source, found⟩

theorem reads_pending (coherent : n.Coherent) {e : Element} (he : e ∈ n.elements)
    {p : String × PortEnd} (hp : p ∈ (Frame.fresh n e).pending) : Reads n e.id p.2.element :=
  (reads_iff coherent he).mpr ⟨p, hp, rfl⟩

/-- How a descent fails: with a loop of read links, which is only when a cycle is reached, or because a
state is of the other sort. -/
def Fails (n : Network) (states : Table ElementState) (cycle : Prop) (fault : Error) : Prop :=
  ((∃ path, fault = .cycle path ∧ IsLoop n path) ∧ cycle) ∨ (fault = .part ∧ ¬ Consistent n states)

theorem Fails.imp {states later : Table ElementState} {cycle reached : Prop} {fault : Error}
    (h : Fails n later cycle fault) (keeps : Consistent n states → Consistent n later)
    (reach : cycle → reached) : Fails n states reached fault :=
  Or.imp (And.imp_right reach) (And.imp_right fun inconsistent => inconsistent ∘ keeps) h

theorem Fails.cycle {states : Table ElementState} {cycle : Prop} {path : List String}
    (h : Fails n states cycle (.cycle path)) : cycle := by
  rcases h with ⟨-, reached⟩ | ⟨part, -⟩
  · exact reached
  · cases part

theorem fails_of_mismatched {states : Table ElementState} {e : Element} (he : e ∈ n.elements)
    {cycle : Prop} (h : Mismatched e.kind (states.value? e.id)) : Fails n states cycle .part :=
  .inr ⟨rfl, fun consistent => consistent.not_mismatched he h⟩

/-- What arrives from an element fails as the reading of its ports does, or because of its state. -/
private theorem fails_of_arrive {w : Surroundings} (coherent : w.network.Coherent) {e : Element}
    (he : e ∈ w.network.elements) (port : String) {up : List String}
    {ports : List (String × PortEnd)} {m m₁ : Memory} {cycle : Prop} {fault : Error}
    (inputs : ∀ fault m₂, gather w up ports [] m = (.error fault, m₂) →
      Fails w.network m.states cycle fault)
    (arrived : arrive e port (keptOr w e m (applyTo w e (gather w up ports [] m))) =
      (.error fault, m₁)) : Fails w.network m.states cycle fault := by
  have signal (states : Table ElementState) (s : Signal) {fault : Error}
      (h : portSignal states e port s = .error fault) : Fails w.network states cycle fault := by
    rcases portSignal_or_mismatched states e port s with ⟨t, ht⟩ | ⟨part, mismatched⟩
    · rw [ht] at h
      cases h
    · rw [part] at h
      cases h
      exact fails_of_mismatched he mismatched
  unfold keptOr at arrived
  split at arrived
  · exact signal m.states _ (congrArg Prod.fst arrived)
  · rcases hgather : gather w up ports [] m with ⟨fault₂ | inputs₂, m₂⟩
    · rw [hgather] at arrived
      cases arrived
      exact inputs _ _ hgather
    · have gathered : Consistent w.network m.states → Consistent w.network m₂.states := by
        intro consistent
        have after := consistent.gather coherent up ports []
        rwa [hgather] at after
      rw [hgather, applyTo] at arrived
      rcases result_or_mismatched w e inputs₂ m₂ with ⟨s, result⟩ | ⟨part, mismatched⟩
      · have applied := fun consistent => (gathered consistent).apply (w := w) coherent he inputs₂
        rw [apply_of_result result] at arrived applied
        exact (signal _ s (congrArg Prod.fst arrived)).imp applied id
      · rw [apply_of_error part] at arrived
        cases arrived
        exact (fails_of_mismatched he mismatched).imp gathered id

/-- Reading ports fails with a loop only when a cycle is reached from one of them. The induction is on
the recursion; the open ids form a path of read links. -/
private theorem fails_of_gather {w : Surroundings} (coherent : w.network.Coherent) {up : List String}
    {top : String} {ports : List (String × PortEnd)} {inputs : Table Signal} {m m' : Memory}
    {fault : Error} (path : OpenPath w.network up top)
    (links : ∀ p ∈ ports, Reads w.network top p.2.element)
    (h : gather w up ports inputs m = (.error fault, m')) :
    Fails w.network m.states (∃ p ∈ ports, ReachesCycle w.network p.2.element) fault := by
  fun_induction gather w up ports inputs m generalizing top fault m' with
  | case1 => cases h
  | case2 up inputs m port r rest missing =>
    -- Wires begin at elements, so the source is found.
    obtain ⟨source, found⟩ := (links _ List.mem_cons_self).element? coherent
    rw [missing] at found
    cases found
  | case3 up inputs m port r rest source found opened =>
    -- The source is on the path already; from there the path leads back to itself.
    have hid := Network.id_of_element? found
    have link : Reads w.network top source.id := hid ▸ links _ List.mem_cons_self
    have loop := path.loop link opened
    cases h
    refine .inl ⟨⟨_, rfl, loop⟩, _, List.mem_cons_self, ?_⟩
    rw [← hid]
    exact ⟨source.id, .refl, loop.cycle List.getLast?_concat⟩
  | case4 up inputs m port r rest source found closed _ s m₁ arrived _ ihRest =>
    have he := Network.mem_of_element? found
    have keeps (consistent : Consistent w.network m.states) : Consistent w.network m₁.states :=
      (consistent_invariant coherent).of_arrive he trivial arrived consistent
        (consistent.gather coherent _ _ _)
    refine (ihRest path (fun p hp => links p (List.mem_cons_of_mem _ hp)) h).imp keeps ?_
    rintro ⟨p, hp, cycle⟩
    exact ⟨p, List.mem_cons_of_mem _ hp, cycle⟩
  | case5 up inputs m port r rest source found closed _ fault₁ m₁ arrived ihSource =>
    obtain ⟨hfault, -⟩ := Prod.mk.inj h
    obtain rfl := Except.error.inj hfault
    have he := Network.mem_of_element? found
    have hid := Network.id_of_element? found
    have link : Reads w.network top source.id := hid ▸ links _ List.mem_cons_self
    have fails := fails_of_arrive coherent he r.port (fun _ _ => ihSource (path.cons link closed)
      fun p hp => reads_pending coherent he hp) arrived
    refine fails.imp id ?_
    rintro ⟨p, hp, cycle⟩
    refine ⟨_, List.mem_cons_self, ?_⟩
    rw [← hid]
    exact reachesCycle_iff.mpr ⟨_, reads_pending coherent he hp, cycle⟩

theorem fails_of_evaluate {w : Surroundings} (coherent : w.network.Coherent) {e : Element}
    (he : e ∈ w.network.elements) {m m' : Memory} {fault : Error}
    (h : evaluate w e m = (.error fault, m')) :
    Fails w.network m.states (ReachesCycle w.network e.id) fault := by
  rw [evaluate_eq_descend, descend] at h
  have inputs (fault₂ : Error) (m₂ : Memory)
      (failed : gather w [e.id] (Frame.fresh w.network e).pending [] m = (.error fault₂, m₂)) :
      Fails w.network m.states (ReachesCycle w.network e.id) fault₂ := by
    refine (fails_of_gather coherent (openPath_singleton e.id)
      (fun p hp => reads_pending coherent he hp) failed).imp id ?_
    rintro ⟨p, hp, cycle⟩
    exact reachesCycle_iff.mpr ⟨_, reads_pending coherent he hp, cycle⟩
  exact fails_of_arrive coherent he e.kind.primaryOutput inputs (by rw [h, arrive])

theorem loop_of_evaluate_error {w : Surroundings} (coherent : w.network.Coherent) {e : Element}
    (he : e ∈ w.network.elements) {m : Memory} (consistent : Consistent w.network m.states)
    {fault : Error} (h : (evaluate w e m).1 = .error fault) :
    (∃ path, fault = .cycle path ∧ IsLoop w.network path) ∧ ReachesCycle w.network e.id :=
  (fails_of_evaluate coherent he (Prod.ext h rfl)).resolve_right fun part => part.2 consistent

theorem exists_evaluate_ok {w : Surroundings} (coherent : w.network.Coherent) {e : Element}
    (he : e ∈ w.network.elements) (acyclic : ¬ ReachesCycle w.network e.id) {m : Memory}
    (consistent : Consistent w.network m.states) :
    ∃ s m', evaluate w e m = (.ok s, m') := by
  rcases heval : evaluate w e m with ⟨fault | s, m'⟩
  · exact (acyclic (loop_of_evaluate_error coherent he consistent (by rw [heval])).2).elim
  · exact ⟨s, m', rfl⟩

end RungLogic.Scan
