import RungLogic.Proofs.Scan.Loops
import RungLogic.Scan.Cycle

/-!
Plain recursion: the meaning of an element without stack, open ids or errors. The scan machine gives
just this meaning to each element from which no cycle is reached, and a scan writes to the variable
of a coil the value that the coil itself has.
-/

set_option autoImplicit false
set_option relaxedAutoImplicit false

namespace RungLogic.Scan

/-- The read ports of an element that have a wire, in order, each with the far end of its first
wire. -/
def wiredPorts (n : Network) (e : Element) : List (String × PortEnd) :=
  (readPorts e.kind).filterMap fun port => (feed? n e.id port).map fun r => (port, r)

mutual

/-- `Evaluates w e m s m'`: evaluated by recursion with memory `m`, the element `e` gives `s` and
leaves `m'`. -/
inductive Evaluates (w : Surroundings) : Element → Memory → Signal → Memory → Prop
  /-- Where results are kept, a timer or counter that has one is not evaluated again. -/
  | kept {e : Element} {m : Memory} {s : Signal} :
      m.keptSignal? w e = some s → Evaluates w e m s m
  /-- An element is applied once, to what its wired ports read. -/
  | applied {e : Element} {m m₁ m₂ : Memory} {inputs : Table Signal} {s : Signal} :
      m.keptSignal? w e = none → Gathers w (wiredPorts w.network e) [] m inputs m₁ →
      apply w e inputs m₁ = (.ok s, m₂) → Evaluates w e m s m₂

/-- `Gathers w ports known m inputs m'`: reading `ports` one after the other adds their signals to
`known`, which makes `inputs`, and turns memory `m` into `m'`. -/
inductive Gathers (w : Surroundings) :
    List (String × PortEnd) → Table Signal → Memory → Table Signal → Memory → Prop
  | nil {inputs : Table Signal} {m : Memory} : Gathers w [] inputs m inputs m
  /-- The source is evaluated first, and its port is looked at then. -/
  | cons {port : String} {r : PortEnd} {rest : List (String × PortEnd)} {source : Element}
      {known inputs : Table Signal} {m m₁ m₂ : Memory} {s t : Signal} :
      w.network.element? r.element = some source → Evaluates w source m s m₁ →
      portSignal m₁.states source r.port s = .ok t →
      Gathers w rest (known.put port t) m₁ inputs m₂ →
      Gathers w ((port, r) :: rest) known m inputs m₂

end

theorem Evaluates.unique {w : Surroundings} {e : Element} {m m₁ : Memory} {s : Signal}
    (h : Evaluates w e m s m₁) :
    ∀ (t : Signal) (m₂ : Memory), Evaluates w e m t m₂ → s = t ∧ m₁ = m₂ := by
  refine @Evaluates.rec w
    (fun e m s m₁ _ => ∀ t m₂, Evaluates w e m t m₂ → s = t ∧ m₁ = m₂)
    (fun ports known m inputs m₁ _ =>
      ∀ inputs' m₂, Gathers w ports known m inputs' m₂ → inputs = inputs' ∧ m₁ = m₂)
    ?kept ?applied ?nil ?cons e m s m₁ h
  case kept =>
    intro e m s hkept t m₂ h'
    cases h' with
    | kept hkept' =>
      rw [hkept] at hkept'
      exact ⟨Option.some.inj hkept', rfl⟩
    | applied hnone _ _ =>
      rw [hkept] at hnone
      cases hnone
  case applied =>
    intro e m m₁ m₂ inputs s hnone _ happly ih t m₃ h'
    cases h' with
    | kept hkept' =>
      rw [hkept'] at hnone
      cases hnone
    | applied _ hgather' happly' =>
      obtain ⟨rfl, rfl⟩ := ih _ _ hgather'
      rw [happly] at happly'
      cases happly'
      exact ⟨rfl, rfl⟩
  case nil =>
    intro inputs m inputs' m₂ h'
    cases h'
    exact ⟨rfl, rfl⟩
  case cons =>
    intro port r rest source known inputs m m₁ m₂ s t found _ hport _ ihSource ihRest inputs' m₃ h'
    cases h' with
    | cons found' hsource' hport' hrest' =>
      rw [found] at found'
      cases found'
      obtain ⟨rfl, rfl⟩ := ihSource _ _ hsource'
      rw [hport] at hport'
      cases hport'
      exact ihRest _ _ hrest'

private theorem evaluates_of_keptOr {w : Surroundings} {up : List String} {e : Element}
    {m m' : Memory} {s : Signal}
    (ports : ∀ inputs m₁, gather w (e.id :: up) (Frame.fresh w.network e).pending [] m =
      (.ok inputs, m₁) → Gathers w (wiredPorts w.network e) [] m inputs m₁)
    (h : descend w up e m = (.ok s, m')) : Evaluates w e m s m' := by
  unfold descend keptOr at h
  split at h
  · rename_i hkept
    cases h
    exact .kept hkept
  · rename_i hnone
    rcases hgather : gather w (e.id :: up) (Frame.fresh w.network e).pending [] m
      with ⟨fault | inputs, m₁⟩
    · rw [hgather] at h
      cases h
    · rw [hgather] at h
      exact .applied hnone (ports inputs m₁ hgather) h

private theorem gathers_of_gather {w : Surroundings} {up : List String} {ports : List (String × PortEnd)}
    {known inputs : Table Signal} {m m' : Memory}
    (h : gather w up ports known m = (.ok inputs, m')) : Gathers w ports known m inputs m' := by
  fun_induction gather w up ports known m generalizing inputs m' with
  | case1 =>
    cases h
    exact .nil
  | case2 | case3 => cases h
  | case4 up known m port r rest source found closed _ t m₂ arrived ihSource ihRest =>
    rcases hsource : descend w up source m with ⟨fault | s, m₁⟩
    · unfold descend at hsource
      rw [hsource] at arrived
      cases arrived
    · have hsource' := hsource
      unfold descend at hsource'
      rw [hsource'] at arrived
      obtain ⟨hport, rfl⟩ := Prod.mk.inj arrived
      exact .cons found (evaluates_of_keptOr (fun inputs m₁ h => ihSource h) hsource) hport
        (ihRest h)
  | case5 => cases h

theorem evaluates_of_evaluate {w : Surroundings} {e : Element} {m m' : Memory} {s : Signal}
    (h : evaluate w e m = (.ok s, m')) : Evaluates w e m s m' := by
  rw [evaluate_eq_descend] at h
  exact evaluates_of_keptOr (fun inputs m₁ h => gathers_of_gather h) h

/-- Without a cycle in reach, the machine gives what recursion gives. -/
theorem evaluate_iff {w : Surroundings} (coherent : w.network.Coherent) {e : Element}
    (he : e ∈ w.network.elements) (acyclic : ¬ ReachesCycle w.network e.id) {m : Memory}
    (consistent : Consistent w.network m.states) {s : Signal} {m' : Memory} :
    evaluate w e m = (.ok s, m') ↔ Evaluates w e m s m' := by
  constructor
  · exact evaluates_of_evaluate
  · intro h
    obtain ⟨t, m₁, heval⟩ := exists_evaluate_ok coherent he acyclic consistent
    obtain ⟨rfl, rfl⟩ := h.unique _ _ (evaluates_of_evaluate heval)
    exact heval

theorem coilLine?_eq_some_iff {n : Network} {e : Element} {source : PortEnd} {target : String} :
    coilLine? n e = some (source, target) ↔ e.kind.isCoil = true ∧ feed? n e.id "in" = some source ∧
      e.reference? = some target ∧ target ≠ "" := by
  unfold coilLine?
  cases hkind : e.kind.isCoil with
  | false => simp
  | true =>
    rcases hfeed : feed? n e.id "in" with _ | s
    · simp
    · rcases htarget : e.reference? with _ | t
      · simp
      · by_cases hempty : t = ""
        · simp only [if_true, hempty]
          grind
        · simp only [if_true, hempty, if_false]
          grind

private theorem isCoil_iff {k : Kind} : k.isCoil = true ↔ k = .coil ∨ k = .coilNegated := by
  cases k <;> simp [Kind.isCoil]

private theorem isStateful_of_isCoil {k : Kind} (h : k.isCoil = true) : k.isStateful = false := by
  rcases isCoil_iff.mp h with rfl | rfl <;> rfl

theorem readPorts_of_isCoil {k : Kind} (h : k.isCoil = true) : readPorts k = ["in"] := by
  rcases isCoil_iff.mp h with rfl | rfl <;> rfl

private theorem wiredPorts_coil {n : Network} {e : Element} {source : PortEnd}
    (hkind : e.kind.isCoil = true)
    (hfeed : feed? n e.id "in" = some source) : wiredPorts n e = [("in", source)] := by
  simp only [wiredPorts, readPorts_of_isCoil hkind, List.filterMap_cons, hfeed, Option.map_some,
    List.filterMap_nil]

private theorem apply_coil {w : Surroundings} {e : Element} (hkind : e.kind.isCoil = true) (t : Signal)
    (m : Memory) : apply w e [("in", t)] m =
      (.ok (.truth (coilValue e t)), m.record e.id (.truth (coilValue e t))) := by
  have hon : isOn [("in", t)] "in" = t.isOn := rfl
  have hcompute : computed w e [("in", t)] m = .truth (coilValue e t) := by
    rcases isCoil_iff.mp hkind with hk | hk
    · simp only [computed, compute, hk, hon, coilValue]
      cases t.isOn <;> rfl
    · simp only [computed, compute, hk, hon, coilValue]
      cases t.isOn <;> rfl
  have hresult : (computed w e [("in", t)] m).result = .ok (.truth (coilValue e t)) := by
    rw [hcompute]
    rfl
  rw [apply_of_result hresult, hcompute]
  simp [Memory.keep, isStateful_of_isCoil hkind, Memory.remember, Memory.say, Memory.record,
    Computed.truth]

private theorem keptSignal?_coil {w : Surroundings} {e : Element} (hkind : e.kind.isCoil = true)
    (m : Memory) : m.keptSignal? w e = none := by
  simp [Memory.keptSignal?, isStateful_of_isCoil hkind]

/-- With no cycle in reach of its wire, a coil has the value of the signal that its wire brings. -/
private theorem evaluate_coil {w : Surroundings} (coherent : w.network.Coherent) {c : Element}
    (hc : c ∈ w.network.elements) {source : PortEnd} {target : String}
    (line : coilLine? w.network c = some (source, target))
    (acyclic : ¬ ReachesCycle w.network source.element) {m : Memory}
    (consistent : Consistent w.network m.states) :
    ∃ t m₁, readPort w source m = (.ok t, m₁) ∧
      evaluate w c m = (.ok (.truth (coilValue c t)), m₁.record c.id (.truth (coilValue c t))) := by
  obtain ⟨hkind, hfeed, -, -⟩ := coilLine?_eq_some_iff.mp line
  obtain ⟨feeder, hfeeder, found, hid, -⟩ := exists_source coherent hfeed
  obtain ⟨s, m₁, heval⟩ := exists_evaluate_ok coherent hfeeder (hid ▸ acyclic) consistent
  have consistent₁ := consistent.evaluate coherent hfeeder
  rw [heval] at consistent₁
  obtain ⟨t, ht⟩ := consistent₁.exists_portSignal hfeeder source.port s
  have hread : readPort w source m = (.ok t, m₁) := by
    simp only [readPort, found, heval, ht]
  refine ⟨t, m₁, hread, ?_⟩
  have acyclicCoil : ¬ ReachesCycle w.network c.id := by
    intro cycle
    obtain ⟨b, link, rest⟩ := reachesCycle_iff.mp cycle
    obtain ⟨p, hp, rfl⟩ := (reads_iff coherent hc).mp link
    have hpending : (Frame.fresh w.network c).pending = [("in", source)] :=
      wiredPorts_coil hkind hfeed
    rw [hpending, List.mem_singleton] at hp
    subst hp
    exact acyclic rest
  rw [evaluate_iff coherent hc acyclicCoil consistent]
  refine .applied (keptSignal?_coil hkind m) ?_ (apply_coil hkind t m₁)
  rw [wiredPorts_coil hkind hfeed]
  exact .cons found (evaluates_of_evaluate heval) ht .nil

/-- The scan machine refines plain recursion: from an element that reaches no cycle of read links it
gives the signal that recursion gives and leaves the memory that recursion leaves, whatever was kept
before. And when a scan comes to a coil with a wire and a variable, it writes the value that the
evaluation of the coil gives there. -/
theorem evaluate_refines_recursion (setting : Setting) (valid : setting.network.Valid)
    (store : Store) :
    (∀ e ∈ setting.network.elements, ¬ ReachesCycle setting.network e.id →
      ∀ m : Memory, Consistent setting.network m.states →
        (∃ s m', evaluate (setting.over store) e m = (.ok s, m')) ∧
        ∀ s m', evaluate (setting.over store) e m = (.ok s, m') ↔
          Evaluates (setting.over store) e m s m') ∧
    (∀ c ∈ setting.network.elements, ∀ source target,
      coilLine? setting.network c = some (source, target) →
      ¬ ReachesCycle setting.network source.element →
      ∀ m : Memory, Consistent setting.network m.states →
        ∃ b m₁, evaluate (setting.over store) c m =
            (.ok (.truth b), m₁.record c.id (.truth b)) ∧
          ∀ rest, scanElements setting (c :: rest) ⟨store, m⟩ =
            scanElements setting rest (writeCoil c target b ⟨store, m₁⟩)) := by
  have coherent : (setting.over store).network.Coherent := valid.coherent
  constructor
  · intro e he acyclic m consistent
    exact ⟨exists_evaluate_ok coherent he acyclic consistent,
      fun s m' => evaluate_iff coherent he acyclic consistent⟩
  · intro c hc source target line acyclic m consistent
    obtain ⟨t, m₁, hread, heval⟩ := evaluate_coil coherent hc line acyclic consistent
    refine ⟨coilValue c t, m₁, heval, fun rest => ?_⟩
    rw [scanElements, line]
    simp only [hread]

/-- A lamp that looks at both outputs of the timer behind its switch, beside a negation that is wired
to itself. -/
def lampBesideLoop : Network where
  id := "n"
  elements :=
    [⟨"switch", .contact, {}, [("variable", .text "X1")]⟩,
      ⟨"delay", .timerOn, {}, [("preset", .text "T#2s")]⟩,
      ⟨"either", .or, {}, []⟩,
      ⟨"lamp", .coil, {}, [("variable", .text "Y1")]⟩,
      ⟨"loop", .not, {}, []⟩,
      ⟨"alarm", .coil, {}, [("variable", .text "Y2")]⟩]
  connections :=
    [⟨⟨"switch", "out"⟩, ⟨"delay", "in"⟩⟩, ⟨⟨"delay", "q"⟩, ⟨"either", "in1"⟩⟩,
      ⟨⟨"delay", "et"⟩, ⟨"either", "in2"⟩⟩, ⟨⟨"either", "out"⟩, ⟨"lamp", "in"⟩⟩,
      ⟨⟨"loop", "out"⟩, ⟨"loop", "in"⟩⟩, ⟨⟨"loop", "out"⟩, ⟨"alarm", "in"⟩⟩]

theorem valid_lampBesideLoop : lampBesideLoop.Valid := by decide

theorem not_reachesCycle_lampBesideLoop {id : String} (h : id ≠ "loop" ∧ id ≠ "alarm") :
    ¬ ReachesCycle lampBesideLoop id :=
  not_reachesCycle_of_rank (fun id => id ≠ "loop" ∧ id ≠ "alarm")
    (fun id => ["switch", "delay", "either", "lamp"].idxOf id) (by decide) h

/-- The lamp reads its timer twice, and the timer has been running since the clock stood at 500. -/
theorem lamp_refines_recursion :
    let states : Table ElementState := [("delay", .timer { running := true, start := .int 500 })]
    let setting : Setting := ⟨lampBesideLoop, .int 2500, true⟩
    let lamp : Element := ⟨"lamp", .coil, {}, [("variable", .text "Y1")]⟩
    lampBesideLoop.Valid ∧ ¬ ReachesCycle lampBesideLoop "lamp" ∧
      ¬ ReachesCycle lampBesideLoop "either" ∧ Consistent lampBesideLoop states ∧
      (∃ s m', evaluate (setting.over Store.standard) lamp { states := states } = (.ok s, m')) ∧
      (∀ s m', evaluate (setting.over Store.standard) lamp { states := states } = (.ok s, m') ↔
        Evaluates (setting.over Store.standard) lamp { states := states } s m') ∧
      ∃ b m₁, evaluate (setting.over Store.standard) lamp { states := states } =
          (.ok (.truth b), m₁.record "lamp" (.truth b)) ∧
        ∀ rest, scanElements setting (lamp :: rest) ⟨Store.standard, { states := states }⟩ =
          scanElements setting rest (writeCoil lamp "Y1" b ⟨Store.standard, m₁⟩) := by
  intro states setting lamp
  have acyclic : ∀ {id : String}, id ≠ "loop" ∧ id ≠ "alarm" → ¬ ReachesCycle lampBesideLoop id :=
    not_reachesCycle_lampBesideLoop
  have consistent : Consistent lampBesideLoop states := by decide +zetaReduce
  obtain ⟨recursion, scan⟩ :=
    evaluate_refines_recursion setting valid_lampBesideLoop Store.standard
  have hlamp : lamp ∈ setting.network.elements := by
    simp [setting, lampBesideLoop, lamp]
  obtain ⟨ends, agrees⟩ := recursion lamp hlamp (acyclic (by decide)) { states := states } consistent
  obtain ⟨b, m₁, heval, hscan⟩ := scan lamp hlamp ⟨"either", "out"⟩ "Y1" rfl (acyclic (by decide))
    { states := states } consistent
  exact ⟨valid_lampBesideLoop, acyclic (by decide), acyclic (by decide), consistent, ends, agrees, b,
    m₁, heval, hscan⟩

end RungLogic.Scan
