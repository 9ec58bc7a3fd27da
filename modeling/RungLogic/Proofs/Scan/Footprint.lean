import RungLogic.Proofs.Scan.Recursion
import RungLogic.Proofs.Simulation.Events
import RungLogic.Proofs.Tables

/-!
The footprint of a scan. An evaluation changes the states of timers and counters to which read links
lead, and no others; a scan writes the variables of its coils, and no others. A variable that is there
keeps its place and its type, and new ones come behind it.
-/

set_option autoImplicit false
set_option relaxedAutoImplicit false

namespace RungLogic

namespace Store

variable {s s₁ s' : Store} {name target : String} {names : List String} {b : Bool}

/-- The names that are new to a store, each where it comes first; a blank one is no name. -/
def newNames (s : Store) (names : List String) : List String :=
  (names.filter fun name => Text.isName name && !Table.has name s).eraseDups

private theorem newNames_singleton (s : Store) (name : String) :
    s.newNames [name] = if Text.isName name && !Table.has name s then [name] else [] := by
  by_cases h : (Text.isName name && !Table.has name s) = true
  · rw [newNames, List.filter_cons, if_pos h, if_pos h, List.filter_nil, List.eraseDups_cons,
      List.filter_nil, List.eraseDups_nil]
  · rw [newNames, List.filter_cons, if_neg h, if_neg h, List.filter_nil, List.eraseDups_nil]

private theorem newNames_cons (names : List String)
    (h : s₁.names = s.names ++ s.newNames [name]) :
    s.newNames (name :: names) = s.newNames [name] ++ s₁.newNames names := by
  have known (other : String) : Table.has other s₁ =
      (Table.has other s || decide (other ∈ s.newNames [name])) := by
    rw [Bool.eq_iff_iff, Bool.or_eq_true, decide_eq_true_eq, Table.has_iff, Table.has_iff, h,
      List.mem_append]
  simp only [newNames_singleton] at known ⊢
  by_cases new : (Text.isName name && !Table.has name s) = true
  · simp only [if_pos new, List.mem_singleton] at known ⊢
    rw [newNames, List.filter_cons, if_pos new, List.eraseDups_cons, List.filter_filter,
      List.singleton_append, newNames]
    refine congrArg (fun rest => name :: List.eraseDups rest) (List.filter_congr fun other _ => ?_)
    rw [known]
    by_cases same : other = name
    · simp [same]
    · simp [same]
  · simp only [if_neg new, List.not_mem_nil, decide_false, Bool.or_false] at known ⊢
    rw [newNames, List.filter_cons, if_neg new, newNames, List.nil_append]
    simp only [known]

private theorem overwritten_new (name : String) (b : Bool) :
    overwritten name (.bool b) none = if Text.isName name then some (.truth b) else none := rfl

private theorem overwritten_old (name : String) (b : Bool) (c : Content) :
    overwritten name (.bool b) (some c) = some (if c.type = .bool then .truth b else c) := by
  cases c <;> rfl

private theorem names_afterCoil (s : Store) (target : String) (b : Bool) :
    (s.afterCoil target b).names = s.names ++ s.newNames [target] := by
  have hhas : Table.has target s = (s.value? target).isSome := Table.has_eq_isSome target s
  rw [newNames_singleton]
  rcases s.write_text target (.bool b) with ⟨c, hwrite, hc⟩ | ⟨⟨fault, hwrite⟩, hc⟩
  · rw [afterCoil, hwrite, orStay]
    by_cases known : Table.has target s = true
    · rw [Table.names_put_of_has known, if_neg (by simp [known]), List.append_nil]
    · have new : Table.has target s = false := by simpa using known
      have hnone : s.value? target = none := by simpa [hhas] using new
      rw [hnone, overwritten_new] at hc
      have named : Text.isName target = true := by
        by_contra unnamed
        simp [unnamed] at hc
      rw [Table.put_of_not_has new, if_pos (by simp [named, new])]
      simp [Table.names]
  · rw [afterCoil, hwrite, orStay]
    have idle : (Text.isName target && !Table.has target s) = false := by
      rcases hold : s.value? target with _ | c
      · rw [hold, overwritten_new] at hc
        have unnamed : Text.isName target = false := by
          by_contra named
          simp [named] at hc
        rw [unnamed, Bool.false_and]
      · simp [hhas, hold]
    rw [idle]
    simp

/-- What coils that write the variables of those names make of a store. Names stand where they stood,
and new ones behind them; no type changes, and a variable of another type than truth values keeps what
it holds. -/
structure Overlaid (names : List String) (s s' : Store) : Prop where
  order : s'.names = s.names ++ s.newNames names
  kept : ∀ name, name ∉ names → s'.value? name = s.value? name
  typed : ∀ name c, s.value? name = some c →
    ∃ c', s'.value? name = some c' ∧ c'.type = c.type ∧ (c.type ≠ .bool → c' = c)
  fresh : ∀ name c, s.value? name = none → s'.value? name = some c → c.type = .bool

theorem Overlaid.refl (s : Store) : Overlaid [] s s :=
  ⟨(List.append_nil _).symm, fun _ _ => rfl, fun _ c h => ⟨c, h, rfl, fun _ => rfl⟩,
    fun _ _ hnone hsome => by rw [hnone] at hsome; cases hsome⟩

private theorem Overlaid.cons (h : Overlaid names (s.afterCoil target b) s') :
    Overlaid (target :: names) s s' := by
  have held := value?_afterCoil s target b
  refine ⟨?_, ?_, ?_, ?_⟩
  · have hnames := names_afterCoil s target b
    rw [h.order, hnames, List.append_assoc, newNames_cons names hnames]
  · intro name hname
    rw [List.mem_cons, not_or] at hname
    rw [h.kept name hname.2, held, if_neg (Ne.symm hname.1)]
  · intro name c hc
    -- One coil keeps the type of what is there, and all of it where no truth value is.
    have first : ∃ c₁, (s.afterCoil target b).value? name = some c₁ ∧ c₁.type = c.type ∧
        (c.type ≠ .bool → c₁ = c) := by
      rw [held, hc, overwritten_old]
      by_cases same : target = name
      · rw [if_pos same]
        by_cases htype : c.type = .bool
        · exact ⟨.truth b, by rw [if_pos htype], htype.symm, fun other => (other htype).elim⟩
        · exact ⟨c, by rw [if_neg htype], rfl, fun _ => rfl⟩
      · rw [if_neg same]
        exact ⟨c, rfl, rfl, fun _ => rfl⟩
    obtain ⟨c₁, hc₁, htype, hkept⟩ := first
    obtain ⟨c', hc', htype', hkept'⟩ := h.typed name c₁ hc₁
    refine ⟨c', hc', htype'.trans htype, fun other => ?_⟩
    rw [hkept' (htype ▸ other), hkept other]
  · intro name c hnone hc
    rcases hfirst : (s.afterCoil target b).value? name with _ | c₁
    · exact h.fresh name c hfirst hc
    · obtain ⟨c', hc', htype, -⟩ := h.typed name c₁ hfirst
      rw [hc] at hc'
      obtain rfl := Option.some.inj hc'
      -- A name that was not there and is there after the first coil is its target.
      rw [held, hnone, overwritten_new] at hfirst
      have truth : c₁ = .truth b := by grind
      rw [htype, truth]
      rfl

private theorem Overlaid.boolean (h : Overlaid names s s')
    (boolean : ∀ old, s.value? name = some old → old.type = .bool) :
    ∀ c, s'.value? name = some c → c.type = .bool := by
  intro c hc
  rcases hold : s.value? name with _ | old
  · exact h.fresh name c hold hc
  · obtain ⟨c', hc', htype, -⟩ := h.typed name old hold
    rw [hc] at hc'
    obtain rfl := Option.some.inj hc'
    rw [htype, boolean old hold]

end Store

namespace Scan

open Relation

variable {setting : Setting} {es : List Element} {p q : Progress}

section

variable {among : Element → Prop} {P : Memory → Prop}

private theorem Invariant.readPort {w : Surroundings} (inv : Invariant w among P) {r : PortEnd} {m : Memory}
    (source : ∀ e, w.network.element? r.element = some e → among e) (h : P m) :
    P (readPort w r m).2 := by
  rcases found : w.network.element? r.element with _ | e
  · simp only [Scan.readPort, found]
    exact h
  · have left := inv.evaluate (Network.mem_of_element? found) (source e found) h
    rcases heval : Scan.evaluate w e m with ⟨fault | s, m₁⟩
    · rw [heval] at left
      simp only [Scan.readPort, found, heval]
      exact left
    · rw [heval] at left
      simp only [Scan.readPort, found, heval]
      exact left

/-- A scan breaks nothing that neither applications nor the writing of coils break. -/
private theorem Invariant.scan (inv : ∀ store, Invariant (setting.over store) among P)
    (write : ∀ e ∈ es, ∀ target b q, P q.memory → P (writeCoil e target b q).memory)
    (sources : ∀ e ∈ es, ∀ source target, coilLine? setting.network e = some (source, target) →
      ∀ d, setting.network.element? source.element = some d → among d) (h : P p.memory) :
    P (scanElements setting es p).2.memory := by
  fun_induction scanElements setting es p with
  | case1 => exact h
  | case2 e rest p line ih =>
    exact ih (List.forall_mem_cons.mp write).2 (List.forall_mem_cons.mp sources).2 h
  | case3 e rest p source target line fault m read =>
    have left := (inv p.store).readPort (sources e List.mem_cons_self source target line) h
    rw [read] at left
    exact left
  | case4 e rest p source target line s m read ih =>
    obtain ⟨first, others⟩ := List.forall_mem_cons.mp write
    have left := (inv p.store).readPort (sources e List.mem_cons_self source target line) h
    rw [read] at left
    exact ih others (List.forall_mem_cons.mp sources).2 (first target _ _ left)

end

/-- Read links lead from an element to a timer or a counter, which an evaluation of the element takes
one step further. -/
def Advances (n : Network) (a id : String) : Prop :=
  ReflTransGen (Reads n) a id ∧ ∃ e ∈ n.elements, e.id = id ∧ e.kind.isStateful = true

variable {w : Surroundings} {n : Network} {e : Element} {m : Memory} {id : String}

private theorem state_computed (h : e.kind.isStateful = false) (inputs : Table Signal) :
    (computed w e inputs m).state = none := by
  rcases hstate : (computed w e inputs m).state with _ | st
  · rfl
  · have fits := fits_settle hstate
    cases st <;> simp only [ElementState.fits] at fits <;> simp [Kind.isStateful, fits] at h

private theorem value?_states_apply (h : id = e.id → e.kind.isStateful = false) (inputs : Table Signal) :
    (apply w e inputs m).2.states.value? id = m.states.value? id := by
  rw [states_apply, states_remember]
  split
  · rename_i same
    rw [state_computed (h same), Option.none_or, same]
  · rfl

private theorem Advances.of_pending {p : String × PortEnd} (h : Advances n p.2.element id)
    (coherent : n.Coherent) (he : e ∈ n.elements) (hp : p ∈ (Frame.fresh n e).pending) :
    Advances n e.id id :=
  ⟨.head (reads_pending coherent he hp) h.1, h.2⟩

private theorem isStateful_of_not_advances (h : ¬ Advances n e.id id) (he : e ∈ n.elements)
    (same : id = e.id) : e.kind.isStateful = false := by
  by_contra stateful
  exact h ⟨same ▸ .refl, e, he, same.symm, by simpa using stateful⟩

private theorem states_invariant (coherent : w.network.Coherent) (id : String)
    (state : Option ElementState) :
    Invariant w (fun e => ¬ Advances w.network e.id id) (fun m => m.states.value? id = state) := by
  refine ⟨fun e he apart inputs m h => ?_, fun e he apart p hp source found led => ?_⟩
  · exact (value?_states_apply (isStateful_of_not_advances apart he) inputs).trans h
  · rw [Network.id_of_element? found] at led
    exact apart (led.of_pending coherent he hp)

theorem reads_of_coilLine? (coherent : n.Coherent) (he : e ∈ n.elements) {source : PortEnd}
    {target : String} (line : coilLine? n e = some (source, target)) :
    Reads n e.id source.element := by
  obtain ⟨hkind, hfeed, -, -⟩ := coilLine?_eq_some_iff.mp line
  have hport : "in" ∈ readPorts e.kind := readPorts_of_isCoil hkind ▸ List.mem_cons_self
  exact ⟨e, "in", source, coherent.element?_of_mem he, hport, hfeed, rfl⟩

/-- The variables of the coils among some elements, as scans come to them. -/
def targets (n : Network) (es : List Element) : List String :=
  es.filterMap fun e => (coilLine? n e).map Prod.snd

theorem mem_targets {n : Network} {es : List Element} {target : String} :
    target ∈ targets n es ↔ ∃ e ∈ es, ∃ source, coilLine? n e = some (source, target) := by
  simp [targets, Prod.exists]

private theorem targets_cons (n : Network) (e : Element) (es : List Element) :
    targets n (e :: es) = ((coilLine? n e).map Prod.snd).toList ++ targets n es := by
  rw [targets, List.filterMap_cons]
  rcases (coilLine? n e).map Prod.snd with _ | target <;> rfl

/-- A scan leaves the variables as the part of it that has been completed has left them; an error ends
it before the rest. -/
theorem exists_completed (setting : Setting) (es : List Element) (p : Progress) :
    ∃ done, done <+: es ∧ ((scanElements setting es p).1 = none → done = es) ∧
      ∃ r, scanElements setting done p = (none, r) ∧
        r.store = (scanElements setting es p).2.store := by
  fun_induction scanElements setting es p with
  | case1 p => exact ⟨[], List.prefix_rfl, fun _ => rfl, p, rfl, rfl⟩
  | case2 e rest p line ih =>
    obtain ⟨done, prior, complete, r, hscan, hstore⟩ := ih
    refine ⟨e :: done, List.cons_prefix_cons.mpr ⟨rfl, prior⟩, fun h => ?_, r, ?_, hstore⟩
    · rw [complete h]
    · rw [scanElements, line]
      exact hscan
  | case3 e rest p source target line fault m read =>
    exact ⟨[], List.nil_prefix, fun h => (by cases h), p, rfl, rfl⟩
  | case4 e rest p source target line s m read ih =>
    obtain ⟨done, prior, complete, r, hscan, hstore⟩ := ih
    refine ⟨e :: done, List.cons_prefix_cons.mpr ⟨rfl, prior⟩, fun h => ?_, r, ?_, hstore⟩
    · rw [complete h]
    · rw [scanElements, line]
      simp only [read]
      exact hscan

theorem overlaid_scan (h : scanElements setting es p = (none, q)) :
    Store.Overlaid (targets setting.network es) p.store q.store := by
  fun_induction scanElements setting es p with
  | case1 p =>
    cases h
    exact .refl _
  | case2 e rest p line ih =>
    rw [targets_cons, line]
    exact ih h
  | case3 => cases h
  | case4 e rest p source target line s m read ih =>
    have rest := ih h
    rw [store_writeCoil] at rest
    rw [targets_cons, line]
    exact rest.cons

theorem states_scan (coherent : setting.network.Coherent)
    (apart : ∀ e ∈ es, ∀ source target, coilLine? setting.network e = some (source, target) →
      ¬ Advances setting.network source.element id) (p : Progress) :
    (scanElements setting es p).2.memory.states.value? id = p.memory.states.value? id := by
  have inv (store : Store) : Invariant (setting.over store)
      (fun e => ¬ Advances setting.network e.id id)
      (fun m => m.states.value? id = p.memory.states.value? id) :=
    states_invariant (w := setting.over store) coherent id _
  refine Invariant.scan inv ?_ ?_ rfl
  · intro e _ target b q h
    rw [states_writeCoil]
    exact h
  · intro e he source target line d found
    rw [Network.id_of_element? found]
    exact apart e he source target line

/-- Nothing is kept or recorded but under the ids of a network. -/
structure Memory.Within (n : Network) (m : Memory) : Prop where
  kept : ∀ id ∈ m.kept.names, ∃ e ∈ n.elements, e.id = id
  outputs : ∀ id ∈ m.outputs.names, ∃ e ∈ n.elements, e.id = id

private theorem Memory.Within.record (h : Memory.Within n m) (he : e ∈ n.elements) (s : Signal) :
    Memory.Within n (m.record e.id s) := by
  refine ⟨h.kept, fun id hid => ?_⟩
  rcases Table.mem_names_put.mp hid with rfl | hid
  · exact ⟨e, he, rfl⟩
  · exact h.outputs id hid

private theorem Memory.Within.keep (h : Memory.Within n m) (he : e ∈ n.elements) (w : Surroundings)
    (s : Signal) : Memory.Within n (m.keep w e s) := by
  unfold Memory.keep
  split
  · refine ⟨fun id hid => ?_, h.outputs⟩
    rcases Table.mem_names_put.mp hid with rfl | hid
    · exact ⟨e, he, rfl⟩
    · exact h.kept id hid
  · exact h

private theorem within_invariant (w : Surroundings) :
    Invariant w (fun _ => True) (Memory.Within w.network) := by
  refine ⟨fun e he _ inputs m h => ?_, fun _ _ _ _ _ _ _ => trivial⟩
  have remembered : Memory.Within w.network
      ((m.remember e.id (computed w e inputs m).state).say (computed w e inputs m).notices) := by
    rcases (computed w e inputs m).state with _ | state
    · exact ⟨h.kept, h.outputs⟩
    · exact ⟨h.kept, h.outputs⟩
  rcases hresult : (computed w e inputs m).result with fault | s
  · rw [apply_of_error hresult]
    exact remembered
  · rw [apply_of_result hresult]
    exact (remembered.keep he w s).record he s

theorem within_scan {store : Store} {states : Table ElementState} {fault : Option Error}
    (h : scanElements setting setting.network.elements ⟨store, { states := states }⟩ = (fault, q)) :
    Memory.Within setting.network q.memory := by
  have empty : Memory.Within setting.network { states := states } :=
    ⟨fun _ hid => (by cases hid), fun _ hid => (by cases hid)⟩
  have write : ∀ e ∈ setting.network.elements, ∀ target b p, Memory.Within setting.network p.memory →
      Memory.Within setting.network (writeCoil e target b p).memory := by
    intro e he target b p hp
    have recorded := hp.record he (.truth b)
    unfold writeCoil
    split
    · exact recorded
    · exact ⟨recorded.kept, recorded.outputs⟩
  have scan : Memory.Within setting.network (scanElements setting setting.network.elements
      ⟨store, { states := states }⟩).2.memory :=
    Invariant.scan (fun store => within_invariant (setting.over store)) write
      (fun _ _ _ _ _ _ _ => trivial) empty
  rwa [h] at scan

theorem value?_last {before after : List Element} {c : Element} {source : PortEnd} {target : String}
    (h : scanElements setting (before ++ c :: after) p = (none, q))
    (line : coilLine? setting.network c = some (source, target))
    (last : target ∉ targets setting.network after) :
    ∃ r t m, scanElements setting before p = (none, r) ∧
      readPort (setting.over r.store) source r.memory = (.ok t, m) ∧
      (Text.isName target = true → (∀ old, p.store.value? target = some old → old.type = .bool) →
        q.store.value? target = some (.truth (coilValue c t))) := by
  rw [scanElements_append] at h
  rcases hbefore : scanElements setting before p with ⟨_ | fault, r⟩
  · rw [hbefore] at h
    simp only [scanElements, line] at h
    rcases hread : readPort (setting.over r.store) source r.memory with ⟨fault | t, m⟩
    · simp only [hread] at h
      cases h
    · simp only [hread] at h
      refine ⟨r, t, m, rfl, hread, fun named boolean => ?_⟩
      have boolean := (overlaid_scan hbefore).boolean boolean
      rw [(overlaid_scan h).kept target last, store_writeCoil, Store.value?_afterCoil, if_pos rfl]
      rcases hold : r.store.value? target with _ | c
      · rw [Store.overwritten_new, if_pos named]
      · rw [Store.overwritten_old, if_pos (boolean c hold)]
  · rw [hbefore] at h
    cases h

end Scan

end RungLogic
