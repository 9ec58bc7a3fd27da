import RungLogic.Proofs.Scan.Ideal
import RungLogic.Proofs.Scan.CycleDetection
import RungLogic.Proofs.Simulation.Events

/-!
Scans in any order. When the coils of a network write variables of their own that no element consults,
and nobody looks at how long an off-delay timer has run, every scan leaves what the ideal has it leave,
in whatever order the elements stand and whether or not the results of timers and counters are kept.
-/

set_option autoImplicit false
set_option relaxedAutoImplicit false

namespace RungLogic.Scan

open Relation
open Network (Reordered)

/-- Networks whose elements may stand in any order. No element reads itself through others; the coils
that take part in scans write different variables, and no element consults any of these. -/
structure Orderless (n : Network) : Prop extends OffDelays n where
  acyclic : ∀ id, ¬ TransGen (Reads n) id id
  distinct : ∀ c ∈ n.elements, ∀ d ∈ n.elements, ∀ source other target,
    coilLine? n c = some (source, target) → coilLine? n d = some (other, target) → c = d
  unread : ∀ c ∈ n.elements, ∀ source target, coilLine? n c = some (source, target) →
    ∀ e ∈ n.elements, ¬ e.Consults target

section

variable {n other : Network}

private theorem coilLine?_reordered (h : Reordered n other) (c : Element) :
    coilLine? other c = coilLine? n c := by
  simp only [coilLine?, feed?_reordered h]

private theorem reads_reordered (h : Reordered n other) (coherent : n.Coherent) :
    Reads other = Reads n := by
  funext a b
  simp only [Reads, h.element? coherent, feed?_reordered h]

theorem consistent_reordered (h : Reordered n other) {states : Table ElementState} :
    Consistent other states ↔ Consistent n states := by
  simp only [Consistent, h.mem_iff]

private theorem Orderless.not_reachesCycle (orderless : Orderless n) (h : Reordered n other)
    (coherent : n.Coherent) (id : String) : ¬ ReachesCycle other id := by
  rintro ⟨b, -, cycle⟩
  rw [reads_reordered h coherent] at cycle
  exact orderless.acyclic b cycle

end

/-- What the ideal has a wire from that port carry. -/
def Brings (w : Surroundings) (begun : Table ElementState) (r : PortEnd) (t : Signal) : Prop :=
  ∃ e c s, w.network.element? r.element = some e ∧ Yields w begun e c ∧ c.result = .ok s ∧
    portOf (c.leaves (begun.value? e.id)) e r.port s = .ok t

variable {w : Surroundings} {begun : Table ElementState}

private theorem Brings.unique {r : PortEnd} {t t' : Signal} (h : Brings w begun r t)
    (h' : Brings w begun r t') : t = t' := by
  obtain ⟨e, c, s, found, hc, hs, ht⟩ := h
  obtain ⟨e', c', s', found', hc', hs', ht'⟩ := h'
  rw [found] at found'
  obtain rfl := Option.some.inj found'
  obtain rfl := hc.unique _ hc'
  rw [hs] at hs'
  obtain rfl := Except.ok.inj hs'
  rw [ht] at ht'
  exact Except.ok.inj ht'

private theorem Midway.of_eq {met : String → Prop} {m m' : Memory} (h : Midway w begun met m)
    (states : m'.states = m.states) (kept : m'.kept = m.kept) : Midway w begun met m' := by
  refine ⟨h.closed, ?_, ?_, ?_⟩
  · intro e he hmet
    rw [Done, states]
    exact h.done e he hmet
  · rw [states]
    exact h.fresh
  · rw [kept]
    exact h.kept

private theorem writeCoil_store (c : Element) (target : String) (b : Bool) (p : Progress) (name : String) :
    (writeCoil c target b p).store.value? name =
      if target = name then Store.overwritten name (.bool b) (p.store.value? name)
      else p.store.value? name := by
  rw [store_writeCoil, Store.value?_afterCoil]

private theorem Midway.writeCoil {met : String → Prop} {c : Element} {target : String} {b : Bool}
    {p : Progress} (h : Midway w begun met p.memory) :
    Midway w begun met (writeCoil c target b p).memory := by
  unfold Scan.writeCoil
  split
  · exact h.of_eq rfl rfl
  · exact h.of_eq rfl rfl

/-- What the coils among some elements make of the variables and the memory: they have evaluated what
their wires lead to and have written what their wires bring, each its own variable. -/
structure Scanned (w : Surroundings) (begun : Table ElementState) (es : List Element)
    (met : String → Prop) (p q : Progress) : Prop where
  memory : Midway w begun (fun id => met id ∨ ∃ c ∈ es, ∃ source target,
    coilLine? w.network c = some (source, target) ∧
      ReflTransGen (Reads w.network) source.element id) q.memory
  written : ∀ c ∈ es, ∀ source target, coilLine? w.network c = some (source, target) →
    ∃ t, Brings w begun source t ∧ q.store.value? target =
      Store.overwritten target (.bool (coilValue c t)) (p.store.value? target)
  unwritten : ∀ name, (∀ c ∈ es, ∀ source, coilLine? w.network c ≠ some (source, name)) →
    q.store.value? name = p.store.value? name

variable {met : String → Prop} {p q : Progress} {e : Element} {es : List Element}

private theorem scanned_nil (h : Midway w begun met p.memory) : Scanned w begun [] met p p := by
  refine ⟨h.congr fun id => ?_, ?_, fun _ _ => rfl⟩
  · simp
  · intro c hc
    cases hc

private theorem Scanned.skip (h : Scanned w begun es met p q) (line : coilLine? w.network e = none) :
    Scanned w begun (e :: es) met p q := by
  refine ⟨h.memory.congr fun id => ?_, ?_, ?_⟩
  · simp [line]
  · intro c hc source target hline
    rcases List.mem_cons.mp hc with rfl | hc
    · rw [line] at hline
      cases hline
    · exact h.written c hc source target hline
  · intro name hname
    exact h.unwritten name fun c hc => hname c (List.mem_cons_of_mem _ hc)

private theorem Scanned.write {source : PortEnd} {target : String} {t : Signal} {m : Memory}
    (h : Scanned w begun es (fun id => met id ∨ ReflTransGen (Reads w.network) source.element id)
      (writeCoil e target (coilValue e t) { p with memory := m }) q)
    (line : coilLine? w.network e = some (source, target)) (brings : Brings w begun source t)
    (alone : ∀ c ∈ es, ∀ other, coilLine? w.network c ≠ some (other, target)) :
    Scanned w begun (e :: es) met p q := by
  refine ⟨h.memory.congr fun id => ?_, ?_, ?_⟩
  · simp [line, or_assoc]
  · intro c hc other name hline
    rcases List.mem_cons.mp hc with rfl | hc
    · rw [line] at hline
      obtain ⟨rfl, rfl⟩ := Prod.mk.inj (Option.some.inj hline)
      refine ⟨t, brings, ?_⟩
      rw [h.unwritten target alone, writeCoil_store, if_pos rfl]
    · obtain ⟨u, hu, hwritten⟩ := h.written c hc other name hline
      have hne : target ≠ name := by
        rintro rfl
        exact alone c hc other hline
      rw [writeCoil_store, if_neg hne] at hwritten
      exact ⟨u, hu, hwritten⟩
  · intro name hname
    have hne : target ≠ name := by
      rintro rfl
      exact hname e List.mem_cons_self source line
    rw [h.unwritten name fun c hc => hname c (List.mem_cons_of_mem _ hc), writeCoil_store, if_neg hne]

section

variable {i : Int} (hnow : w.now = .int i) (orderless : Orderless w.network)
  (coherent : w.network.Coherent) {setting : Setting}
  (network : Reordered w.network setting.network) (now : setting.now = w.now)

include hnow orderless coherent network now

private theorem Midway.readPort
    (midway : Midway w begun met p.memory) (sound : Sound setting.network p.memory)
    (unwritten : ∀ name, (∀ c ∈ w.network.elements, ∀ source,
      coilLine? w.network c ≠ some (source, name)) → p.store.value? name = w.store.value? name)
    {id port : String} {source : PortEnd} (hfeed : feed? w.network id port = some source) :
    ∃ t m, readPort (setting.over p.store) source p.memory = (.ok t, m) ∧
      Brings w begun source t ∧ Sound setting.network m ∧
      Midway w begun
        (fun id => met id ∨ ReflTransGen (Reads w.network) source.element id) m := by
  have alike : Alike w (setting.over p.store) := by
    refine ⟨network, now, fun e he name hname => unwritten name ?_⟩
    intro c hc other hline
    exact orderless.unread c hc other name hline e he hname
  have hfeed' : feed? (setting.over p.store).network id port = some source :=
    (feed?_reordered network id port).trans hfeed
  obtain ⟨sound', -, hfault⟩ :=
    readPort_spec (w := setting.over p.store) (network.coherent coherent) hfeed' sound
  obtain ⟨e, he, found, hid, -⟩ := exists_source coherent hfeed
  rcases hread : Scan.readPort (setting.over p.store) source p.memory with ⟨fault | t, m⟩
  · rw [hread] at hfault
    exact (orderless.not_reachesCycle network coherent _ (hfault fault rfl).2).elim
  · rw [hread] at sound'
    have found' : (setting.over p.store).network.element? source.element = some e :=
      (network.element? coherent _).trans found
    rcases heval : evaluate (setting.over p.store) e p.memory with ⟨fault | s, m'⟩
    · simp only [Scan.readPort, found', heval] at hread
      cases hread
    · simp only [Scan.readPort, found', heval] at hread
      obtain ⟨hport, rfl⟩ := Prod.mk.inj hread
      obtain ⟨⟨c, hc, hs⟩, midway'⟩ := Midway.evaluates hnow orderless.toOffDelays alike coherent
        (evaluates_of_evaluate heval) he met midway
      have ht := midway'.carries orderless.toOffDelays he (.inr .refl) hc hid
        (wired_of_feed? hfeed) hport
      exact ⟨t, m', rfl, ⟨e, c, s, found, hc, hs, ht⟩, sound', hid ▸ midway'⟩

/-- A scan leaves what the ideal has it leave. The induction is on the elements still to scan. -/
theorem Midway.scanElements (midway : Midway w begun met p.memory)
    (sound : Sound setting.network p.memory)
    (unwritten : ∀ name, (∀ c ∈ w.network.elements, ∀ source,
      coilLine? w.network c ≠ some (source, name)) → p.store.value? name = w.store.value? name)
    (nodup : es.Nodup) (subset : ∀ c ∈ es, c ∈ w.network.elements) :
    ∃ q, scanElements setting es p = (none, q) ∧ Scanned w begun es met p q := by
  induction es generalizing met p with
  | nil => exact ⟨p, rfl, scanned_nil midway⟩
  | cons e rest ih =>
    obtain ⟨fresh, nodup⟩ := List.nodup_cons.mp nodup
    obtain ⟨he, subset⟩ := List.forall_mem_cons.mp subset
    rcases line : coilLine? w.network e with _ | ⟨source, target⟩
    · obtain ⟨q, hscan, scanned⟩ := ih midway sound unwritten nodup subset
      refine ⟨q, ?_, scanned.skip line⟩
      rw [Scan.scanElements, coilLine?_reordered network, line]
      exact hscan
    · have hfeed := (coilLine?_eq_some_iff.mp line).2.1
      obtain ⟨t, m, hread, brings, sound₁, midway₁⟩ :=
        midway.readPort hnow orderless coherent network now sound unwritten hfeed
      -- No two coils write one variable, so the rest leaves the target alone.
      have alone : ∀ c ∈ rest, ∀ other, coilLine? w.network c ≠ some (other, target) := by
        intro c hc other hline
        obtain rfl := orderless.distinct e he c (subset c hc) source other target line hline
        exact fresh hc
      have unwritten₁ : ∀ name, (∀ c ∈ w.network.elements, ∀ source,
          coilLine? w.network c ≠ some (source, name)) →
          (Scan.writeCoil e target (coilValue e t) { p with memory := m }).store.value? name =
            w.store.value? name := by
        intro name hname
        have hne : target ≠ name := by
          rintro rfl
          exact hname e he source line
        rw [writeCoil_store, if_neg hne]
        exact unwritten name hname
      obtain ⟨q, hscan, scanned⟩ :=
        ih (p := Scan.writeCoil e target (coilValue e t) { p with memory := m })
          (Midway.writeCoil midway₁) (Sound.writeCoil sound₁) unwritten₁ nodup subset
      refine ⟨q, ?_, scanned.write line brings alone⟩
      rw [Scan.scanElements, coilLine?_reordered network, line]
      simp only [hread]
      exact hscan

end

/-- Scans of the same elements in different orders that begin with the same variables end with the same
variables and with states of the same core. -/
theorem Scanned.agree {es es' : List Element} {p p' q q' : Progress}
    (h : Scanned w begun es met p q) (h' : Scanned w begun es' met p' q')
    (same : ∀ c, c ∈ es' ↔ c ∈ es)
    (store : ∀ name, p'.store.value? name = p.store.value? name) :
    (∀ name, q'.store.value? name = q.store.value? name) ∧
      ∀ e ∈ w.network.elements,
        (q'.memory.states.value? e.id).map (ElementState.core e.kind) =
          (q.memory.states.value? e.id).map (ElementState.core e.kind) := by
  constructor
  · intro name
    by_cases hwritten : ∃ c ∈ es, ∃ source, coilLine? w.network c = some (source, name)
    · obtain ⟨c, hc, source, line⟩ := hwritten
      obtain ⟨t, ht, hvalue⟩ := h.written c hc source name line
      obtain ⟨u, hu, hvalue'⟩ := h'.written c ((same c).mpr hc) source name line
      rw [hvalue, hvalue', ht.unique hu, store]
    · have hnone : ∀ c ∈ es, ∀ source, coilLine? w.network c ≠ some (source, name) := by
        intro c hc source line
        exact hwritten ⟨c, hc, source, line⟩
      rw [h.unwritten name hnone, h'.unwritten name fun c hc => hnone c ((same c).mp hc), store]
  · intro e he
    -- Both scans have evaluated the same elements, those that some coil among them leads to.
    have memory := h'.memory
    simp only [same] at memory
    by_cases hmet : met e.id ∨ ∃ c ∈ es, ∃ source target,
        coilLine? w.network c = some (source, target) ∧
          ReflTransGen (Reads w.network) source.element e.id
    · obtain ⟨c, hc, hstate⟩ := h.memory.done e he hmet
      obtain ⟨d, hd, hstate'⟩ := memory.done e he hmet
      rw [hstate, hstate', hc.unique d hd]
    · rw [h.memory.fresh e he hmet, memory.fresh e he hmet]

end RungLogic.Scan
