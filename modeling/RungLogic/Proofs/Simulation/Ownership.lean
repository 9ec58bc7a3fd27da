import RungLogic.Proofs.Scan.Footprint
import RungLogic.Proofs.Simulation.Reached

/-!
What a scan owns. Whether it is completed or ended by an error, it touches only the variables that its
coils write and the timers and counters that its coils lead to; the type and the place of a variable
stay what they were. Among coils that write one variable, the last has its way.
-/

set_option autoImplicit false
set_option relaxedAutoImplicit false

namespace RungLogic.Simulation

open Relation Scan

variable {s : Simulation}

/-- The variables after a scan are those before it, with what the coils of its completed part write laid
over them. When the clock gives no reading, that part is empty. -/
private theorem exists_overlaid (s : Simulation) :
    ∃ done, done <+: s.scanner.network.elements ∧
      (s.cycle.result = .ok () → done = s.scanner.network.elements) ∧
      (∀ now clock, s.context.clock.read = .ok (now, clock) →
        ∃ r, scanElements ⟨s.scanner.network, now, s.context.memoize⟩ done
            ⟨s.context.store, { states := s.context.states }⟩ = (none, r) ∧
          s.cycle.state.context.store = r.store) ∧
      Store.Overlaid (targets s.scanner.network done) s.context.store
        s.cycle.state.context.store := by
  rcases hread : s.context.clock.read with fault | ⟨now, clock⟩
  · rw [cycle_of_read_error hread]
    exact ⟨[], List.nil_prefix, fun ok => (by cases ok), fun _ _ reading => (by cases reading),
      .refl _⟩
  · obtain ⟨done, prior, complete, r, hdone, hstore⟩ :=
      exists_completed ⟨s.scanner.network, now, s.context.memoize⟩ s.scanner.network.elements
        ⟨s.context.store, { states := s.context.states }⟩
    rcases hscan : scanElements ⟨s.scanner.network, now, s.context.memoize⟩
      s.scanner.network.elements ⟨s.context.store, { states := s.context.states }⟩ with ⟨fault, p⟩
    rw [hscan] at complete hstore
    have hcycle := cycle_of_read hread hscan
    have left : s.cycle.state.context.store = r.store := by rw [hcycle, hstore]
    refine ⟨done, prior, fun ok => complete ?_, fun now' clock' reading => ?_,
      left ▸ overlaid_scan hdone⟩
    · rw [hcycle] at ok
      rcases fault with _ | fault
      · rfl
      · cases ok
    · cases reading
      exact ⟨r, hdone, left⟩

private theorem states_cycle (coherent : s.scanner.network.Coherent) {id : String}
    (apart : ∀ c ∈ s.scanner.network.elements, ∀ source target,
      coilLine? s.scanner.network c = some (source, target) →
      ¬ Advances s.scanner.network source.element id) :
    s.cycle.state.context.states.value? id = s.context.states.value? id := by
  rcases hread : s.context.clock.read with fault | ⟨now, clock⟩
  · rw [cycle_of_read_error hread]
  · rw [cycle_of_read hread rfl]
    exact states_scan coherent apart _

private theorem last_coil {above below : List Element} {c : Element} {source : PortEnd} {target : String}
    (split : s.scanner.network.elements = above ++ c :: below)
    (line : coilLine? s.scanner.network c = some (source, target))
    (last : target ∉ targets s.scanner.network below) (ok : s.cycle.result = .ok ()) :
    ∃ now clock r t m, s.context.clock.read = .ok (now, clock) ∧
      scanElements ⟨s.scanner.network, now, s.context.memoize⟩ above
        ⟨s.context.store, { states := s.context.states }⟩ = (none, r) ∧
      readPort (Setting.over ⟨s.scanner.network, now, s.context.memoize⟩ r.store) source r.memory =
        (.ok t, m) ∧
      (Text.isName target = true →
        (∀ old, s.context.store.value? target = some old → old.type = .bool) →
        s.cycle.state.context.store.value? target = some (.truth (coilValue c t))) := by
  rcases hread : s.context.clock.read with fault | ⟨now, clock⟩
  · rw [cycle_of_read_error hread] at ok
    cases ok
  · rcases hscan : scanElements ⟨s.scanner.network, now, s.context.memoize⟩
      s.scanner.network.elements ⟨s.context.store, { states := s.context.states }⟩ with ⟨fault, p⟩
    have hcycle := cycle_of_read hread hscan
    rcases fault with _ | fault
    · rw [split] at hscan
      obtain ⟨r, t, m, habove, hsource, hlast⟩ := value?_last hscan line last
      refine ⟨now, clock, r, t, m, rfl, habove, hsource, ?_⟩
      rw [hcycle]
      exact hlast
    · rw [hcycle] at ok
      cases ok

/-- A scan touches only what its coils own. A variable that is written by no coil that takes part keeps
what it holds; every variable keeps its type, and what it holds if that is no truth value. Names stand
where they stood, with the new ones behind them, in the order in which the coils of the completed part
of the scan come to them, and what is new is a truth value. States change only of timers and counters
to which read links lead from a coil that takes part. When the scan is completed, a variable of truth
values or a new one holds what the last coil that writes it has come to. -/
theorem scan_touches_own (valid : s.scanner.network.Valid) :
    let n := s.scanner.network
    let begun : Progress := ⟨s.context.store, { states := s.context.states }⟩
    let before := s.context
    let after := s.cycle.state.context
    (∀ name, (∀ c ∈ n.elements, ∀ source, coilLine? n c ≠ some (source, name)) →
      after.store.value? name = before.store.value? name) ∧
    (∀ name old, before.store.value? name = some old →
      ∃ new, after.store.value? name = some new ∧ new.type = old.type ∧
        (old.type ≠ .bool → new = old)) ∧
    (∃ done, done <+: n.elements ∧ (s.cycle.result = .ok () → done = n.elements) ∧
      (∀ now clock, before.clock.read = .ok (now, clock) →
        ∃ r, scanElements ⟨n, now, before.memoize⟩ done begun = (none, r) ∧
          after.store = r.store) ∧
      after.store.names = before.store.names ++ before.store.newNames (targets n done)) ∧
    (∀ name new, before.store.value? name = none → after.store.value? name = some new →
      new.type = .bool) ∧
    (∀ id, after.states.value? id ≠ before.states.value? id →
      ∃ c ∈ n.elements, (∃ source target, coilLine? n c = some (source, target)) ∧
        ReflTransGen (Reads n) c.id id ∧
        ∃ e ∈ n.elements, e.id = id ∧ (e.kind.isTimer = true ∨ e.kind.isCounter = true)) ∧
    ∀ above c below source target, n.elements = above ++ c :: below →
      coilLine? n c = some (source, target) →
      (∀ d ∈ below, ∀ other, coilLine? n d ≠ some (other, target)) → s.cycle.result = .ok () →
      ∃ now clock r t m, before.clock.read = .ok (now, clock) ∧
        scanElements ⟨n, now, before.memoize⟩ above begun = (none, r) ∧
        readPort (Setting.over ⟨n, now, before.memoize⟩ r.store) source r.memory = (.ok t, m) ∧
        (Text.isName target = true →
          (∀ old, before.store.value? target = some old → old.type = .bool) →
          after.store.value? target = some (.truth (coilValue c t))) := by
  intro n begun before after
  have coherent : n.Coherent := valid.coherent
  obtain ⟨done, prior, complete, part, overlaid⟩ := exists_overlaid s
  refine ⟨fun name unowned => ?_, overlaid.typed, ⟨done, prior, complete, part, overlaid.order⟩,
    overlaid.fresh, fun id changed => ?_, ?_⟩
  · refine overlaid.kept name fun member => ?_
    obtain ⟨c, hc, source, line⟩ := mem_targets.mp member
    exact unowned c (prior.subset hc) source line
  · by_contra unled
    refine changed (states_cycle coherent ?_)
    rintro c hc source target line ⟨path, e, he, hid, stateful⟩
    exact unled ⟨c, hc, ⟨source, target, line⟩, .head (reads_of_coilLine? coherent hc line) path,
      e, he, hid, Bool.or_eq_true_iff.mp stateful⟩
  · intro above c below source target split line last ok
    refine last_coil split line (fun member => ?_) ok
    obtain ⟨d, hd, other, hline⟩ := mem_targets.mp member
    exact last d hd other hline

/-- A switch with a lamp that follows it late, a sign that is on when the switch is not and has the
variable of the lamp, and a coil that has a variable of integers. -/
def lateLamp : Network where
  id := "n"
  elements :=
    [⟨"switch", .contact, {}, [("variable", .text "X1")]⟩,
      ⟨"delay", .timerOn, {}, [("preset", .text "T#2s")]⟩,
      ⟨"tally", .coil, {}, [("variable", .text "COUNT")]⟩,
      ⟨"lamp", .coil, {}, [("variable", .text "LAMP")]⟩,
      ⟨"sign", .coilNegated, {}, [("variable", .text "LAMP")]⟩]
  connections :=
    [⟨⟨"switch", "out"⟩, ⟨"delay", "in"⟩⟩, ⟨⟨"switch", "out"⟩, ⟨"tally", "in"⟩⟩,
      ⟨⟨"delay", "q"⟩, ⟨"lamp", "in"⟩⟩, ⟨⟨"switch", "out"⟩, ⟨"sign", "in"⟩⟩]

private theorem valid_lateLamp : lateLamp.Valid := by decide

private theorem completed_lateLamp : (start {} lateLamp).cycle.result = .ok () :=
  cycle_completed valid_lateLamp.coherent
    (fun _ => not_reachesCycle_of_rank (fun _ => True)
      (fun id => ["switch", "delay", "tally", "lamp", "sign"].idxOf id) (by decide) trivial)
    (consistent_nil lateLamp) rfl

/-- The scan leaves `X2` and `COUNT` alone, appends `LAMP`, and moves no state but that of the delay;
`LAMP` is as the sign says, which comes after the lamp. -/
theorem lateLamp_touches_own :
    let s := start {} lateLamp
    let after := s.cycle.state.context
    lateLamp.Valid ∧ after.store.value? "X2" = some (.truth false) ∧
      after.store.value? "COUNT" = some (.whole 0) ∧
      after.store.names = Store.standard.names ++ ["LAMP"] ∧
      (∀ id, id ≠ "delay" → after.states.value? id = none) ∧
      ∃ t, after.store.value? "LAMP" = some (.truth (coilValue ⟨"sign", .coilNegated, {}, []⟩ t)) := by
  intro s after
  obtain ⟨unowned, typed, ⟨done, -, complete, -, order⟩, -, states, last⟩ :=
    scan_touches_own (s := s) valid_lateLamp
  refine ⟨valid_lateLamp, ?_, ?_, ?_, ?_, ?_⟩
  · refine unowned "X2" ?_
    intro c hc source line
    have unwritten : "X2" ∉ targets lateLamp lateLamp.elements := by decide
    exact unwritten (mem_targets.mpr ⟨c, hc, source, line⟩)
  · obtain ⟨new, hnew, -, kept⟩ := typed "COUNT" (.whole 0) rfl
    rw [hnew, kept (by decide)]
  · have order : after.store.names = _ := order
    rw [order, complete completed_lateLamp]
    rfl
  · intro id hid
    by_contra changed
    obtain ⟨c, hc, -, -, e, he, rfl, stateful⟩ := states id changed
    have he : e ∈ lateLamp.elements := he
    simp only [lateLamp, List.mem_cons, List.not_mem_nil, or_false] at he
    rcases he with rfl | rfl | rfl | rfl | rfl <;> simp [Kind.isTimer, Kind.isCounter] at stateful hid
  · obtain ⟨-, -, r, t, m, -, -, -, hvalue⟩ := last
      [⟨"switch", .contact, {}, [("variable", .text "X1")]⟩,
        ⟨"delay", .timerOn, {}, [("preset", .text "T#2s")]⟩,
        ⟨"tally", .coil, {}, [("variable", .text "COUNT")]⟩,
        ⟨"lamp", .coil, {}, [("variable", .text "LAMP")]⟩]
      ⟨"sign", .coilNegated, {}, [("variable", .text "LAMP")]⟩ [] ⟨"switch", "out"⟩ "LAMP" rfl rfl
      (fun d hd => by cases hd) completed_lateLamp
    exact ⟨t, hvalue (by decide) (fun old hold => by cases hold)⟩

end RungLogic.Simulation
