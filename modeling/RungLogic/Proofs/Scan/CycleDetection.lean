import RungLogic.Proofs.Scan.Recursion

/-!
Detection of cycles: an evaluation always stops, it fails exactly when a cycle of read links is
reached, and what it reports is such a cycle. What makes this exact is that results are only kept of
elements that reach no cycle, so that no kept result stands in front of one.
-/

set_option autoImplicit false
set_option relaxedAutoImplicit false

namespace RungLogic.Scan

variable {n : Network}

/-- `Halts w k m result memory`: from `m` the machine takes `k` steps to its end. -/
inductive Machine.Halts (w : Surroundings) :
    Nat → Machine → Except Error Signal → Memory → Prop
  | stop {m : Machine} {result : Except Error Signal} {memory : Memory} :
      m.step w = .done result memory → Halts w 1 m result memory
  | move {k : Nat} {m next : Machine} {result : Except Error Signal} {memory : Memory} :
      m.step w = .more next → Halts w k next result memory → Halts w (k + 1) m result memory

/-- The machine halts within its cost. -/
theorem Machine.exists_halts (w : Surroundings) (m : Machine) :
    ∃ k ≤ cost w.network m.frames, Halts w k m (run w m).1 (run w m).2 := by
  fun_induction run w m with
  | case1 m result memory hstep =>
    refine ⟨1, ?_, .stop hstep⟩
    simp only [frames, cost]
    omega
  | case2 m next hstep hlt ih =>
    obtain ⟨k, hk, halts⟩ := ih
    exact ⟨k + 1, Nat.lt_of_le_of_lt hk hlt, .move hstep halts⟩

/-- Results are kept only of elements that reach no cycle. -/
def KeptAcyclic (n : Network) (kept : Table Signal) : Prop :=
  ∀ id s, kept.value? id = some s → ¬ ReachesCycle n id

theorem keptAcyclic_nil (n : Network) : KeptAcyclic n [] := by
  intro id s h
  cases h

private theorem KeptAcyclic.apply {w : Surroundings} {e : Element} {m : Memory}
    (h : KeptAcyclic n m.kept) (acyclic : ¬ ReachesCycle n e.id) (inputs : Table Signal) :
    KeptAcyclic n (apply w e inputs m).2.kept := by
  intro id s hs
  rcases kept_apply hs with ⟨rfl, -⟩ | hs
  · exact acyclic
  · exact h id s hs

/-- An outcome that leaves only harmless results behind, and is no success from where a cycle is
reached. -/
private structure Exact {α : Type} (n : Network) (o : Except Error α × Memory)
    (acyclic : Prop) : Prop where
  kept : KeptAcyclic n o.2.kept
  ok : ∀ a, o.1 = .ok a → acyclic

private theorem exact_keptOr {w : Surroundings} {e : Element} {m : Memory}
    (kept : KeptAcyclic n m.kept) {o : Except Error (Table Signal) × Memory}
    (h : Exact n o (¬ ReachesCycle n e.id)) :
    Exact n (keptOr w e m (applyTo w e o)) (¬ ReachesCycle n e.id) := by
  unfold keptOr
  split
  · rename_i s hkept
    exact ⟨kept, fun _ _ => kept e.id s (value?_of_keptSignal? hkept)⟩
  · rcases o with ⟨fault | inputs, m₁⟩
    · exact ⟨h.kept, fun _ hs => by cases hs⟩
    · have acyclic := h.ok inputs rfl
      exact ⟨h.kept.apply acyclic inputs, fun _ _ => acyclic⟩

private theorem acyclic_of_pending (coherent : n.Coherent) {e : Element} (he : e ∈ n.elements)
    (h : ∀ p ∈ (Frame.fresh n e).pending, ¬ ReachesCycle n p.2.element) :
    ¬ ReachesCycle n e.id := by
  intro cycle
  obtain ⟨b, link, rest⟩ := reachesCycle_iff.mp cycle
  obtain ⟨p, hp, rfl⟩ := (reads_iff coherent he).mp link
  exact h p hp rest

private theorem exact_of_arrive {w : Surroundings} (coherent : n.Coherent) {source : Element}
    (he : source ∈ n.elements) {port : String} {m m₁ : Memory} (kept : KeptAcyclic n m.kept)
    {o : Except Error (Table Signal) × Memory} {result : Except Error Signal}
    (h : Exact n o (∀ p ∈ (Frame.fresh n source).pending, ¬ ReachesCycle n p.2.element))
    (arrived : arrive source port (keptOr w source m (applyTo w source o)) = (result, m₁)) :
    Exact n (result, m₁) (¬ ReachesCycle n source.id) := by
  have hsource : Exact n (keptOr w source m (applyTo w source o)) (¬ ReachesCycle n source.id) :=
    exact_keptOr kept ⟨h.kept, fun inputs hs => acyclic_of_pending coherent he (h.ok inputs hs)⟩
  rcases ho : keptOr w source m (applyTo w source o) with ⟨fault | s, m₂⟩
  · rw [ho] at arrived hsource
    cases arrived
    exact ⟨hsource.kept, fun _ hs => by cases hs⟩
  · rw [ho] at arrived hsource
    cases arrived
    exact ⟨hsource.kept, fun _ _ => hsource.ok s rfl⟩

/-- When all ports have been read, no cycle is reached from any of them. -/
private theorem exact_gather {w : Surroundings} (coherent : w.network.Coherent) (up : List String)
    (ports : List (String × PortEnd)) (inputs : Table Signal) {m : Memory}
    (kept : KeptAcyclic w.network m.kept) :
    Exact w.network (gather w up ports inputs m)
      (∀ p ∈ ports, ¬ ReachesCycle w.network p.2.element) := by
  fun_induction gather w up ports inputs m with
  | case1 => exact ⟨kept, fun _ _ p hp => by cases hp⟩
  | case2 | case3 => exact ⟨kept, fun _ h => by cases h⟩
  | case4 up inputs m port r rest source found closed _ s m₁ arrived ihSource ihRest =>
    have hid := Network.id_of_element? found
    have hsource :=
      exact_of_arrive coherent (Network.mem_of_element? found) kept (ihSource kept) arrived
    have hrest := ihRest hsource.kept
    refine ⟨hrest.kept, fun inputs h => List.forall_mem_cons.mpr ⟨?_, hrest.ok inputs h⟩⟩
    exact hid ▸ hsource.ok s rfl
  | case5 up inputs m port r rest source found closed _ fault m₁ arrived ihSource =>
    have hsource :=
      exact_of_arrive coherent (Network.mem_of_element? found) kept (ihSource kept) arrived
    exact ⟨hsource.kept, fun _ h => by cases h⟩

private theorem exact_evaluate {w : Surroundings} (coherent : w.network.Coherent) {e : Element}
    (he : e ∈ w.network.elements) {m : Memory} (kept : KeptAcyclic w.network m.kept) :
    Exact w.network (evaluate w e m) (¬ ReachesCycle w.network e.id) := by
  rw [evaluate_eq_descend]
  have ports := exact_gather coherent [e.id] (Frame.fresh w.network e).pending [] kept
  exact exact_keptOr kept
    ⟨ports.kept, fun inputs h => acyclic_of_pending coherent he (ports.ok inputs h)⟩

/-- An evaluation fails exactly when a cycle is reached, and with a loop only. -/
theorem evaluate_error_iff {w : Surroundings} (coherent : w.network.Coherent) {e : Element}
    (he : e ∈ w.network.elements) {m : Memory} (consistent : Consistent w.network m.states)
    (kept : KeptAcyclic w.network m.kept) :
    ((∃ path, (evaluate w e m).1 = .error (.cycle path)) ↔ ReachesCycle w.network e.id) ∧
      ∀ fault, (evaluate w e m).1 = .error fault →
        ∃ path, fault = .cycle path ∧ IsLoop w.network path := by
  refine ⟨⟨?_, ?_⟩, ?_⟩
  · rintro ⟨path, h⟩
    exact (loop_of_evaluate_error coherent he consistent h).2
  · intro cycle
    rcases h : (evaluate w e m).1 with fault | s
    · obtain ⟨⟨path, rfl, -⟩, -⟩ := loop_of_evaluate_error coherent he consistent h
      exact ⟨path, rfl⟩
    · exact ((exact_evaluate coherent he kept).ok s h cycle).elim
  · intro fault h
    exact (loop_of_evaluate_error coherent he consistent h).1

/-- A coil with a variable, and the far end of the wire at its input. -/
def Drives (n : Network) (source : PortEnd) (c : Element) : Prop :=
  c.kind.isCoil = true ∧ feed? n c.id "in" = some source ∧
    ∃ target, c.reference? = some target ∧ target ≠ ""

private theorem drives_iff {source : PortEnd} {c : Element} :
    Drives n source c ↔ ∃ target, coilLine? n c = some (source, target) := by
  simp only [coilLine?_eq_some_iff, Drives, exists_and_left]

private theorem not_drives_of_coilLine? {source : PortEnd} {c : Element} (h : coilLine? n c = none) :
    ¬ Drives n source c := by
  intro drives
  obtain ⟨target, line⟩ := drives_iff.mp drives
  rw [h] at line
  cases line

private theorem Drives.eq_source {source other : PortEnd} {c : Element} {target : String}
    (line : coilLine? n c = some (source, target)) (h : Drives n other c) : other = source := by
  obtain ⟨-, hfeed, -⟩ := coilLine?_eq_some_iff.mp line
  exact Option.some.inj (h.2.1.symm.trans hfeed)

/-- What scans rely on: consistent states, and no kept result in front of a cycle. -/
structure Sound (n : Network) (m : Memory) : Prop where
  consistent : Consistent n m.states
  kept : KeptAcyclic n m.kept

theorem Sound.evaluate {w : Surroundings} (coherent : w.network.Coherent) {e : Element}
    (he : e ∈ w.network.elements) {m : Memory} (h : Sound w.network m) :
    Sound w.network (evaluate w e m).2 :=
  ⟨h.consistent.evaluate coherent he, (exact_evaluate coherent he h.kept).kept⟩

theorem Sound.writeCoil {c : Element} {target : String} {b : Bool} {p : Progress}
    (h : Sound n p.memory) : Sound n (writeCoil c target b p).memory := by
  unfold Scan.writeCoil
  split
  · exact ⟨h.consistent, h.kept⟩
  · exact ⟨h.consistent, h.kept⟩

private theorem fails_of_readPort {w : Surroundings} (coherent : w.network.Coherent) {id port : String}
    {source : PortEnd} (hfeed : feed? w.network id port = some source) {m m' : Memory} {fault : Error}
    (h : readPort w source m = (.error fault, m')) :
    Fails w.network m.states (ReachesCycle w.network source.element) fault := by
  obtain ⟨e, he, found, hid, -⟩ := exists_source coherent hfeed
  rcases heval : Scan.evaluate w e m with ⟨fault₁ | s, m₁⟩
  · simp only [readPort, found, heval] at h
    cases h
    rw [← hid]
    exact fails_of_evaluate coherent he heval
  · have keeps (consistent : Consistent w.network m.states) : Consistent w.network m₁.states := by
      have after := consistent.evaluate (w := w) coherent he
      rwa [heval] at after
    simp only [readPort, found, heval, Prod.mk.injEq] at h
    rcases portSignal_or_mismatched m₁.states e source.port s with ⟨t, ht⟩ | ⟨part, mismatched⟩
    · rw [ht] at h
      cases h.1
    · rw [part] at h
      cases h.1
      exact (fails_of_mismatched he mismatched).imp keeps fun reached => reached

theorem readPort_spec {w : Surroundings} (coherent : w.network.Coherent) {id port : String}
    {source : PortEnd} (hfeed : feed? w.network id port = some source) {m : Memory}
    (h : Sound w.network m) :
    Sound w.network (readPort w source m).2 ∧
      (∀ s, (readPort w source m).1 = .ok s → ¬ ReachesCycle w.network source.element) ∧
      ∀ fault, (readPort w source m).1 = .error fault →
        (∃ path, fault = .cycle path ∧ IsLoop w.network path) ∧
          ReachesCycle w.network source.element := by
  have failure : ∀ fault, (readPort w source m).1 = .error fault →
      (∃ path, fault = .cycle path ∧ IsLoop w.network path) ∧
        ReachesCycle w.network source.element := fun fault hf =>
    (fails_of_readPort coherent hfeed (Prod.ext hf rfl)).resolve_right
      fun part => part.2 h.consistent
  obtain ⟨e, he, found, hid, -⟩ := exists_source coherent hfeed
  have sound := h.evaluate coherent he
  rcases heval : Scan.evaluate w e m with ⟨fault | s, m₁⟩
  · rw [heval] at sound
    have hread : readPort w source m = (.error fault, m₁) := by simp only [readPort, found, heval]
    refine ⟨by rwa [hread], fun _ hs => ?_, failure⟩
    rw [hread] at hs
    cases hs
  · rw [heval] at sound
    have hread : (readPort w source m).2 = m₁ := by simp only [readPort, found, heval]
    refine ⟨by rwa [hread], fun _ _ => ?_, failure⟩
    rw [← hid]
    exact (exact_evaluate coherent he h.kept).ok s (by rw [heval])

theorem exists_reachesCycle_of_scan {setting : Setting} (coherent : setting.network.Coherent)
    {es : List Element} {p q : Progress} {path : List String}
    (h : scanElements setting es p = (some (.cycle path), q)) :
    ∃ id, ReachesCycle setting.network id := by
  induction es generalizing p with
  | nil => cases h
  | cons e rest ih =>
    rcases hline : coilLine? setting.network e with _ | ⟨source, target⟩
    · simp only [Scan.scanElements, hline] at h
      exact ih h
    · have hfeed := (coilLine?_eq_some_iff.mp hline).2.1
      rcases hread : readPort (setting.over p.store) source p.memory with ⟨fault | s, m₁⟩
      · simp only [Scan.scanElements, hline, hread] at h
        obtain rfl := Option.some.inj (congrArg Prod.fst h)
        exact ⟨_, (fails_of_readPort (w := setting.over p.store) coherent hfeed hread).cycle⟩
      · simp only [Scan.scanElements, hline, hread] at h
        exact ih h

theorem Sound.scanElements {setting : Setting} (coherent : setting.network.Coherent)
    (es : List Element) {p : Progress} (sound : Sound setting.network p.memory) :
    Sound setting.network (scanElements setting es p).2.memory := by
  induction es generalizing p with
  | nil => exact sound
  | cons e rest ih =>
    rcases hline : coilLine? setting.network e with _ | ⟨source, target⟩
    · simp only [Scan.scanElements, hline]
      exact ih sound
    · have hfeed := (coilLine?_eq_some_iff.mp hline).2.1
      have sound₁ := (readPort_spec (w := setting.over p.store) coherent hfeed sound).1
      rcases hread : readPort (setting.over p.store) source p.memory with ⟨fault | s, m₁⟩
      · rw [hread] at sound₁
        simp only [Scan.scanElements, hline, hread]
        exact sound₁
      · rw [hread] at sound₁
        simp only [Scan.scanElements, hline, hread]
        exact ih (Sound.writeCoil sound₁)

/-- How a scan of some elements ends: it comes to its end and no coil reaches a cycle, or it fails
with a loop at the first coil that reaches one, with the variables as the coils before have left
them. -/
inductive ScanEnd (setting : Setting) (es : List Element) (p : Progress) :
    Option Error → Progress → Prop
  | done {q : Progress} :
      (∀ c ∈ es, ∀ source, Drives setting.network source c →
        ¬ ReachesCycle setting.network source.element) →
      ScanEnd setting es p none q
  | cycle {q : Progress} (path : List String) (before : List Element) (c : Element)
      (after : List Element) (source : PortEnd) (r : Progress) :
      IsLoop setting.network path → es = before ++ c :: after →
      Drives setting.network source c → ReachesCycle setting.network source.element →
      (∀ d ∈ before, ∀ source, Drives setting.network source d →
        ¬ ReachesCycle setting.network source.element) →
      scanElements setting before p = (none, r) → q.store = r.store →
      ScanEnd setting es p (some (.cycle path)) q

private theorem ScanEnd.cons {setting : Setting} {e : Element} {es : List Element} {p next : Progress}
    (hscan : ∀ more, scanElements setting (e :: more) p = scanElements setting more next)
    (quiet : ∀ source, Drives setting.network source e →
      ¬ ReachesCycle setting.network source.element)
    {o : Option Error} {q : Progress} (h : ScanEnd setting es next o q) :
    ScanEnd setting (e :: es) p o q := by
  cases h with
  | done hes => exact .done (List.forall_mem_cons.mpr ⟨quiet, hes⟩)
  | cycle path before c after source r loop split drives cycle first hbefore hstore =>
    have hsplit : e :: es = (e :: before) ++ c :: after := congrArg (e :: ·) split
    have hscanned : scanElements setting (e :: before) p = (none, r) := by
      rw [hscan, hbefore]
    exact .cycle path (e :: before) c after source r loop hsplit drives cycle
      (List.forall_mem_cons.mpr ⟨quiet, first⟩) hscanned hstore

/-- The induction is on the elements still to scan; soundness of the memory is carried along. -/
theorem scanEnd_scanElements (setting : Setting) (coherent : setting.network.Coherent)
    (es : List Element) (p : Progress) (sound : Sound setting.network p.memory) :
    ScanEnd setting es p (scanElements setting es p).1 (scanElements setting es p).2 := by
  induction es generalizing p with
  | nil => exact .done fun c hc => by cases hc
  | cons e rest ih =>
    rcases hline : coilLine? setting.network e with _ | ⟨source, target⟩
    · have hscan : ∀ more, scanElements setting (e :: more) p = scanElements setting more p := by
        intro more
        rw [scanElements, hline]
      have idle : ∀ source, Drives setting.network source e →
          ¬ ReachesCycle setting.network source.element :=
        fun source drives => (not_drives_of_coilLine? hline drives).elim
      rw [hscan]
      exact .cons hscan idle (ih p sound)
    · have drives : Drives setting.network source e := drives_iff.mpr ⟨target, hline⟩
      obtain ⟨sound₁, hok, herror⟩ :=
        readPort_spec (w := setting.over p.store) coherent drives.2.1 sound
      rcases hread : readPort (setting.over p.store) source p.memory with ⟨fault | s, m₁⟩
      · rw [hread] at herror
        obtain ⟨⟨path, rfl, loop⟩, cycle⟩ := herror fault rfl
        have hscan : scanElements setting (e :: rest) p =
            (some (.cycle path), { p with memory := m₁ }) := by
          simp only [scanElements, hline, hread]
        rw [hscan]
        exact .cycle path [] e rest source p loop rfl drives cycle (fun d hd => by cases hd) rfl rfl
      · rw [hread] at hok sound₁
        have quiet : ∀ other, Drives setting.network other e →
            ¬ ReachesCycle setting.network other.element := by
          intro other hother
          rw [hother.eq_source hline]
          exact hok s rfl
        have hscan : ∀ more, scanElements setting (e :: more) p = scanElements setting more
            (writeCoil e target (coilValue e s) { p with memory := m₁ }) := by
          intro more
          simp only [scanElements, hline, hread]
        rw [hscan]
        exact .cons hscan quiet (ih _ (Sound.writeCoil sound₁))

end RungLogic.Scan
