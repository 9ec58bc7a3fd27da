import RungLogic.Network.Trace
import RungLogic.Proofs.Network.Coherence
import RungLogic.Proofs.Number.Limit
import RungLogic.Proofs.Outcomes

/-!
What the trace of a network reaches. It begins at the elements that nothing feeds and goes on along
the wires from primary outputs; of everything it reaches it gives one instruction, if there is a form
for it, and it gives no others. The walk meets each element once, so loops and shared elements do not
disturb it. Only a quantity that has too many digits to be written can make the trace fail.
-/

set_option autoImplicit false
set_option relaxedAutoImplicit false

namespace RungLogic

/-- All kinds have a form in instruction lists but the pulse timer and the counter of both
directions. -/
def Kind.HasForm (k : Kind) : Prop := k ≠ .timerPulse ∧ k ≠ .counterUpDown

namespace Network

/-- A contact without incoming wires whose wires, of which there is one at least, all end at the
second side of gates. -/
structure ServesGates (n : Network) (e : Element) : Prop where
  contact : e.kind = .contact ∨ e.kind = .contactNegated
  unfed : ∀ c ∈ n.connections, c.target.element ≠ e.id
  wired : ∃ c ∈ n.connections, c.source.element = e.id
  gates : ∀ c ∈ n.connections, c.source.element = e.id → c.target.port = "in2" ∧
    ∃ g ∈ n.elements, g.id = c.target.element ∧ (g.kind = .and ∨ g.kind = .or)

/-- An element at which the trace begins: no wire ends at its primary input, and it does not merely
serve gates. -/
structure IsEntry (n : Network) (e : Element) : Prop where
  mem : e ∈ n.elements
  unfed : ∀ c ∈ n.connections, c.target ≠ ⟨e.id, e.kind.primaryInput⟩
  idle : ¬ n.ServesGates e

/-- What is reached from the entries along the wires that leave primary outputs; behind an element
without a form only when the options say so. -/
inductive Traced (n : Network) (o : TraceOptions) : Element → Prop
  | entry {e : Element} : n.IsEntry e → Traced n o e
  | next {d e : Element} {c : Connection} : Traced n o d →
      d.kind.HasForm ∨ o.pastUnknown = true → c ∈ n.connections →
      c.source = ⟨d.id, d.kind.primaryOutput⟩ → e ∈ n.elements → e.id = c.target.element →
      Traced n o e

variable {n : Network} {o : TraceOptions}

theorem Traced.mem_elements {e : Element} (h : n.Traced o e) : e ∈ n.elements := by
  cases h with
  | entry h => exact h.mem
  | next _ _ _ _ he _ => exact he

private theorem isOperandContact_iff (coherent : n.Coherent) (e : Element) :
    n.isOperandContact e = true ↔ n.ServesGates e := by
  have hkind : e.kind.isContact = true ↔ e.kind = .contact ∨ e.kind = .contactNegated := by
    cases e.kind <;> simp [Kind.isContact]
  have hgate (c : Connection) : n.endsAtGate c = true ↔ c.target.port = "in2" ∧
      ∃ g ∈ n.elements, g.id = c.target.element ∧ (g.kind = .and ∨ g.kind = .or) := by
    have hisGate (g : Element) : g.kind.isGate = true ↔ g.kind = .and ∨ g.kind = .or := by
      cases g.kind <;> simp [Kind.isGate]
    simp only [endsAtGate, Bool.and_eq_true, decide_eq_true_eq, Option.any_eq_true, hisGate]
    constructor
    · rintro ⟨hport, g, found, hg⟩
      exact ⟨hport, g, mem_of_element? found, id_of_element? found, hg⟩
    · rintro ⟨hport, g, hmem, hid, hg⟩
      exact ⟨hport, g, hid ▸ coherent.element?_of_mem hmem, hg⟩
  simp only [isOperandContact, Bool.and_eq_true, hkind, List.all_eq_true, hgate]
  constructor
  · rintro ⟨⟨⟨contact, unfed⟩, wired⟩, gates⟩
    refine ⟨contact, ?_, ?_, ?_⟩
    · simpa [incoming, List.filter_eq_nil_iff] using unfed
    · simpa [outgoing, List.filter_eq_nil_iff] using wired
    · intro c hc hsource
      exact gates c (by simp [outgoing, hc, hsource])
  · rintro ⟨contact, unfed, wired, gates⟩
    refine ⟨⟨⟨contact, ?_⟩, ?_⟩, ?_⟩
    · simpa [incoming, List.filter_eq_nil_iff] using unfed
    · simpa [outgoing, List.filter_eq_nil_iff] using wired
    · intro c hc
      simp only [outgoing, List.mem_filter, Option.all_none, Bool.and_true, decide_eq_true_eq] at hc
      exact gates c hc.1 hc.2

theorem isFed_eq (n : Network) (id : String) :
    n.isFed id = (n.connections.filter fun w => w.target.element = id).any n.feeds := by
  simp [isFed, List.any_filter]

private theorem isFed_iff (coherent : n.Coherent) {e : Element} (he : e ∈ n.elements) :
    n.isFed e.id = true ↔ ∃ c ∈ n.connections, c.target = ⟨e.id, e.kind.primaryInput⟩ := by
  simp only [isFed, List.any_eq_true, Bool.and_eq_true, decide_eq_true_eq, feeds,
    Option.any_eq_true]
  constructor
  · rintro ⟨⟨source, ⟨id, port⟩⟩, hc, rfl, d, found, rfl⟩
    rw [coherent.element?_of_mem he] at found
    cases found
    exact ⟨_, hc, rfl⟩
  · rintro ⟨c, hc, htarget⟩
    refine ⟨c, hc, by rw [htarget], e, ?_, by rw [htarget]⟩
    rw [htarget]
    exact coherent.element?_of_mem he

theorem mem_entries_iff (coherent : n.Coherent) {e : Element} : e ∈ n.entries ↔ n.IsEntry e := by
  simp only [entries, List.mem_filter, Bool.and_eq_true, Bool.not_eq_true']
  constructor
  · rintro ⟨he, unfed, idle⟩
    refine ⟨he, fun c hc htarget => ?_, fun serves => ?_⟩
    · rw [(isFed_iff coherent he).mpr ⟨c, hc, htarget⟩] at unfed
      cases unfed
    · rw [(isOperandContact_iff coherent e).mpr serves] at idle
      cases idle
  · rintro ⟨he, unfed, idle⟩
    refine ⟨he, ?_, ?_⟩
    · rw [Bool.eq_false_iff, Ne, isFed_iff coherent he]
      rintro ⟨c, hc, htarget⟩
      exact unfed c hc htarget
    · rw [Bool.eq_false_iff, Ne, isOperandContact_iff coherent]
      exact idle

theorem mem_successors_iff (coherent : n.Coherent) {d e : Element} :
    e ∈ n.successors o d ↔ (d.kind.HasForm ∨ o.pastUnknown = true) ∧
      ∃ c ∈ n.connections, c.source = ⟨d.id, d.kind.primaryOutput⟩ ∧ e ∈ n.elements ∧
        e.id = c.target.element := by
  have hexpanded : n.isExpanded o d = true ↔ d.kind.HasForm ∨ o.pastUnknown = true := by
    simp only [isExpanded, Bool.or_eq_true, isSome_instruction?, Kind.HasForm]
  have hfound (c : Connection) : n.element? c.target.element = some e ↔
      e ∈ n.elements ∧ e.id = c.target.element := by
    constructor
    · intro found
      exact ⟨mem_of_element? found, id_of_element? found⟩
    · rintro ⟨he, hid⟩
      exact hid ▸ coherent.element?_of_mem he
  unfold successors
  split
  · rename_i expanded
    have hgo := hexpanded.mp expanded
    simp only [hgo, true_and, List.mem_filterMap, outgoing, List.mem_filter, Option.all_some,
      Bool.and_eq_true, decide_eq_true_eq, hfound]
    constructor
    · rintro ⟨⟨⟨id, port⟩, target⟩, ⟨hc, rfl, rfl⟩, he⟩
      exact ⟨_, hc, rfl, he⟩
    · rintro ⟨c, hc, hsource, he⟩
      exact ⟨c, ⟨hc, by rw [hsource], by rw [hsource]⟩, he⟩
  · rename_i closed
    simp only [List.not_mem_nil, false_iff]
    rintro ⟨hgo, -⟩
    exact closed (hexpanded.mpr hgo)

theorem walk_nil (n : Network) (o : TraceOptions) (met : List Element) : n.walk o met [] = met := by
  rw [walk]

theorem walk_skip {met : List Element} {id : String} {e : Element} (found : n.element? id = some e)
    (old : isMet met e.id = true) (rest : List String) :
    n.walk o met (id :: rest) = n.walk o met rest := by
  rw [walk]
  split
  · rfl
  · rename_i d h
    obtain rfl : e = d := Option.some.inj (found.symm.trans h)
    rw [dif_pos old]

theorem walk_meet {met : List Element} {id : String} {e : Element} (found : n.element? id = some e)
    (new : isMet met e.id = false) (rest : List String) :
    n.walk o met (id :: rest) =
      n.walk o (met ++ [e]) (rest ++ (n.successors o e).map Element.id) := by
  rw [walk]
  split
  · rename_i h
    exact absurd (found.symm.trans h) (Option.some_ne_none e)
  · rename_i d h
    obtain rfl : e = d := Option.some.inj (found.symm.trans h)
    rw [dif_neg (Bool.eq_false_iff.mp new)]

/-- What holds in the course of a walk: nothing is met twice or without being reached, and whatever
follows an element that has been met has been met itself or waits in the queue. -/
structure Walked (n : Network) (o : TraceOptions) (met : List Element) (queue : List String) :
    Prop where
  nodup : (met.map Element.id).Nodup
  traced : ∀ e ∈ met, n.Traced o e
  waiting : ∀ id ∈ queue, ∀ e, n.element? id = some e → n.Traced o e
  onward : ∀ d ∈ met, ∀ e ∈ n.successors o d, e ∈ met ∨ e.id ∈ queue

theorem mem_of_isMet (coherent : n.Coherent) {met : List Element}
    (known : ∀ d ∈ met, d ∈ n.elements) {e : Element} (he : e ∈ n.elements) :
    isMet met e.id = true ↔ e ∈ met := by
  simp only [isMet, List.any_eq_true, decide_eq_true_eq]
  constructor
  · rintro ⟨d, hd, same⟩
    exact coherent.eq_of_id (known d hd) he same ▸ hd
  · intro h
    exact ⟨e, h, rfl⟩

private theorem Walked.known {met : List Element} {queue : List String}
    (h : Walked n o met queue) : ∀ d ∈ met, d ∈ n.elements :=
  fun d hd => (h.traced d hd).mem_elements

private theorem Walked.pass (coherent : n.Coherent) {met : List Element} {id : String}
    {rest : List String} (h : Walked n o met (id :: rest))
    (done : ∀ e, n.element? id = some e → e ∈ met) : Walked n o met rest := by
  refine ⟨h.nodup, h.traced, fun i hi => h.waiting i (List.mem_cons_of_mem id hi), ?_⟩
  intro d hd e he
  rcases h.onward d hd e he with hmet | hqueue
  · exact .inl hmet
  · rcases List.mem_cons.mp hqueue with hid | hrest
    · obtain ⟨-, c, -, -, hmem, -⟩ := (mem_successors_iff coherent).mp he
      exact .inl (done e (hid ▸ coherent.element?_of_mem hmem))
    · exact .inr hrest

private theorem Walked.meet (coherent : n.Coherent) {met : List Element} {id : String}
    {rest : List String} (h : Walked n o met (id :: rest)) {e : Element}
    (found : n.element? id = some e) (new : ¬ isMet met e.id = true) :
    Walked n o (met ++ [e]) (rest ++ (n.successors o e).map Element.id) := by
  have traced : n.Traced o e := h.waiting id List.mem_cons_self e found
  refine ⟨?_, ?_, ?_, ?_⟩
  · rw [List.map_append, List.map_singleton]
    refine List.nodup_append.mpr ⟨h.nodup, List.nodup_singleton _, ?_⟩
    intro a ha b hb hab
    obtain ⟨d, hd, rfl⟩ := List.mem_map.mp ha
    rw [List.mem_singleton.mp hb] at hab
    exact new (by simpa [isMet] using ⟨d, hd, hab⟩)
  · intro d hd
    rcases List.mem_append.mp hd with hold | hnew
    · exact h.traced d hold
    · exact List.mem_singleton.mp hnew ▸ traced
  · intro i hi d hfound
    rcases List.mem_append.mp hi with hold | hnew
    · exact h.waiting i (List.mem_cons_of_mem id hold) d hfound
    · obtain ⟨s, hs, rfl⟩ := List.mem_map.mp hnew
      obtain ⟨hgo, c, hc, hsource, hmem, hid⟩ := (mem_successors_iff coherent).mp hs
      rw [coherent.element?_of_mem hmem] at hfound
      cases hfound
      exact .next traced hgo hc hsource hmem hid
  · intro d hd s hs
    rcases List.mem_append.mp hd with hold | hnew
    · rcases h.onward d hold s hs with hmet | hqueue
      · exact .inl (List.mem_append_left _ hmet)
      · rcases List.mem_cons.mp hqueue with hid | hrest
        -- What waited under this id is the element that is met now.
        · obtain ⟨-, c, -, -, hmem, -⟩ := (mem_successors_iff coherent).mp hs
          rw [← hid, coherent.element?_of_mem hmem] at found
          cases found
          exact .inl (by simp)
        · exact .inr (List.mem_append_left _ hrest)
    · rw [List.mem_singleton.mp hnew] at hs
      exact .inr (List.mem_append_right _ (List.mem_map_of_mem hs))

private theorem Walked.walk (coherent : n.Coherent) {met : List Element} {queue : List String}
    (h : Walked n o met queue) : Walked n o (n.walk o met queue) [] ∧
      (∀ e ∈ met, e ∈ n.walk o met queue) ∧
      ∀ id ∈ queue, ∀ e, n.element? id = some e → e ∈ n.walk o met queue := by
  fun_induction Network.walk n o met queue with
  | case1 met => exact ⟨h, fun e he => he, by simp⟩
  | case2 met id rest missing ih =>
    obtain ⟨walked, kept, done⟩ := ih (h.pass coherent (by simp [missing]))
    refine ⟨walked, kept, fun i hi e found => ?_⟩
    rcases List.mem_cons.mp hi with rfl | hi
    · rw [missing] at found
      cases found
    · exact done i hi e found
  | case3 met id rest d found old ih =>
    have hmet : d ∈ met := (mem_of_isMet coherent h.known (mem_of_element? found)).mp old
    have hdone : ∀ e, n.element? id = some e → e ∈ met := by
      intro e he
      rw [found] at he
      cases he
      exact hmet
    obtain ⟨walked, kept, done⟩ := ih (h.pass coherent hdone)
    refine ⟨walked, kept, fun i hi e hfound => ?_⟩
    rcases List.mem_cons.mp hi with rfl | hi
    · exact kept e (hdone e hfound)
    · exact done i hi e hfound
  | case4 met id rest d found new _ ih =>
    obtain ⟨walked, kept, done⟩ := ih (h.meet coherent found new)
    refine ⟨walked, fun e he => kept e (List.mem_append_left _ he), fun i hi e hfound => ?_⟩
    rcases List.mem_cons.mp hi with rfl | hi
    · rw [found] at hfound
      cases hfound
      exact kept d (by simp)
    · exact done i (List.mem_append_left _ hi) e hfound

private theorem Walked.seeds (coherent : n.Coherent) {seeds met : List Element}
    (hseeds : ∀ e ∈ seeds, n.IsEntry e) (h : Walked n o met []) :
    Walked n o (seeds.foldl (fun met e => n.walk o met [e.id]) met) [] ∧
      (∀ e ∈ met, e ∈ seeds.foldl (fun met e => n.walk o met [e.id]) met) ∧
      ∀ e ∈ seeds, e ∈ seeds.foldl (fun met e => n.walk o met [e.id]) met := by
  induction seeds generalizing met with
  | nil => exact ⟨h, fun e he => he, by simp⟩
  | cons s seeds ih =>
    have entry := hseeds s List.mem_cons_self
    have found := coherent.element?_of_mem entry.mem
    have begun : Walked n o met [s.id] := by
      refine ⟨h.nodup, h.traced, ?_, fun d hd e he => .inl ?_⟩
      · intro id hid e he
        rw [List.mem_singleton.mp hid, found] at he
        cases he
        exact .entry entry
      · simpa using h.onward d hd e he
    obtain ⟨walked, kept, done⟩ := begun.walk coherent
    obtain ⟨walked', kept', done'⟩ := ih (fun e he => hseeds e (List.mem_cons_of_mem s he)) walked
    refine ⟨walked', fun e he => kept' e (kept e he), fun e he => ?_⟩
    rcases List.mem_cons.mp he with rfl | he
    · exact kept' e (done e.id List.mem_cons_self e found)
    · exact done' e he

/-- The walk over a network meets exactly what the trace reaches, and nothing twice. -/
theorem order_spec (coherent : n.Coherent) (o : TraceOptions) :
    ((n.order o).map Element.id).Nodup ∧ ∀ e, e ∈ n.order o ↔ n.Traced o e := by
  have start : Walked n o [] [] := ⟨List.nodup_nil, by simp, by simp, by simp⟩
  obtain ⟨walked, -, done⟩ :=
    start.seeds coherent fun e he => (mem_entries_iff coherent).mp he
  refine ⟨walked.nodup, fun e => ⟨walked.traced e, fun h => ?_⟩⟩
  induction h with
  | entry h => exact done _ ((mem_entries_iff coherent).mpr h)
  | next _ hgo hc hsource he hid ih =>
    have hsucc := (mem_successors_iff coherent).mpr ⟨hgo, _, hc, hsource, he, hid⟩
    rcases walked.onward _ ih _ hsucc with hmet | hqueue
    · exact hmet
    · cases hqueue

private theorem Traced.pastUnknown {e : Element} (h : n.Traced ⟨false⟩ e) : n.Traced ⟨true⟩ e := by
  induction h with
  | entry h => exact .entry h
  | next _ _ hc hsource he hid ih => exact .next ih (.inr rfl) hc hsource he hid

theorem writtenTrace_of_short {n : Network} {o : TraceOptions}
    (short : ∀ e ∈ n.order o, e.quantity.isLong = false) : n.writtenTrace o = .ok (n.trace o) := by
  have written : ∀ e ∈ n.order o, n.writtenInstruction? e = .ok (n.instruction? e) := fun e he => by
    rw [writtenInstruction?, short e he]
    rfl
  rw [writtenTrace, mapM_ok_of_forall written, Except.map, List.filterMap_map]
  rfl

theorem writtenTrace_error_iff {n : Network} {o : TraceOptions} {fault : Error} :
    n.writtenTrace o = .error fault ↔
      (∃ e ∈ n.order o, e.quantity.isLong = true) ∧ fault = .value .unwritable := by
  have each : ∀ e ∈ n.order o, ∀ other, n.writtenInstruction? e = .error other ↔
      e.quantity.isLong = true ∧ other = .value .unwritable := by
    intro e _ other
    rw [writtenInstruction?]
    split
    · rename_i long
      exact ⟨fun failed => ⟨long, (Except.error.inj failed).symm⟩, fun failed => failed.2 ▸ rfl⟩
    · rename_i short
      exact ⟨fun failed => (by cases failed), fun failed => absurd failed.1 short⟩
  rw [writtenTrace, ← mapM_error_iff_exists each]
  cases (n.order o).mapM n.writtenInstruction? <;> simp [Except.map]

/-- The trace of a valid network, written out. It fails just if it reaches an element with a quantity that has
too many digits to be written. Else it gives one instruction for each element that it reaches and that has a
form, and no others, and each of them passes its check. What is reached without going on behind elements that
have no form is also reached otherwise. -/
theorem written_trace_gives_reached {n : Network} (valid : n.Valid) (o : TraceOptions) :
    (∀ fault, n.writtenTrace o = .error fault ↔
      (∃ e, n.Traced o e ∧ e.quantity.isLong = true) ∧ fault = .value .unwritable) ∧
    ((∀ e, n.Traced o e → e.quantity.isLong = false) → ∃ p, n.writtenTrace o = .ok p ∧
      (∃ es : List Element, (es.map Element.id).Nodup ∧
        (∀ e, e ∈ es ↔ n.Traced o e ∧ e.kind.HasForm) ∧
        es.map n.instruction? = p.map some) ∧
      ∀ i ∈ p, Instruction.make (.text i.operator.name) (.ofText? i.operand)
        (.ofText? i.modifier) = .ok i) ∧
    ∀ e, n.Traced ⟨false⟩ e → n.Traced ⟨true⟩ e := by
  obtain ⟨nodup, reached⟩ := order_spec valid.coherent o
  refine ⟨fun fault => ?_, fun short => ⟨n.trace o, ?_, ⟨(n.order o).filter fun e =>
    (n.instruction? e).isSome, ?_, ?_, ?_⟩, ?_⟩, fun e h => h.pastUnknown⟩
  · simp only [writtenTrace_error_iff, reached]
  · exact writtenTrace_of_short fun e he => short e ((reached e).mp he)
  · exact nodup.sublist ((List.filter_sublist).map Element.id)
  · intro e
    rw [List.mem_filter, reached, isSome_instruction?, Kind.HasForm]
  · rw [trace, List.map_filterMap_some_eq_filter_map_isSome, List.filter_map]
    rfl
  · intro i hi
    obtain ⟨e, -, he⟩ := List.mem_filterMap.mp hi
    obtain ⟨op, -, rfl⟩ := Option.map_eq_some_iff.mp he
    exact Instruction.Valid.make_eq (by simp [Instruction.Valid])

/-- A lamp that is wired to itself through a negation, behind a pulse timer; the gate before the timer
has a contact of its own at its second side, which is wired twice. -/
def echoBehindPulse : Network where
  id := "n"
  elements :=
    [⟨"switch", .contact, {}, [("variable", .text "X1")]⟩,
      ⟨"guard", .contactNegated, {}, [("variable", .text "X2")]⟩,
      ⟨"gate", .and, {}, []⟩,
      ⟨"pulse", .timerPulse, {}, []⟩,
      ⟨"lamp", .coil, {}, [("variable", .text "Y1")]⟩,
      ⟨"echo", .not, {}, []⟩]
  connections :=
    [⟨⟨"switch", "out"⟩, ⟨"gate", "in1"⟩⟩, ⟨⟨"guard", "out"⟩, ⟨"gate", "in2"⟩⟩,
      ⟨⟨"guard", "out"⟩, ⟨"gate", "in2"⟩⟩, ⟨⟨"gate", "out"⟩, ⟨"pulse", "in"⟩⟩,
      ⟨⟨"pulse", "q"⟩, ⟨"lamp", "in"⟩⟩, ⟨⟨"lamp", "out"⟩, ⟨"echo", "in"⟩⟩,
      ⟨⟨"echo", "out"⟩, ⟨"lamp", "in"⟩⟩]

theorem valid_echoBehindPulse : echoBehindPulse.Valid := by decide

/-- The lamp is reached when the walk goes on behind the pulse timer, so the trace stores it. -/
theorem echo_gives_lamp :
    echoBehindPulse.Valid ∧ ∃ p, echoBehindPulse.writtenTrace ⟨true⟩ = .ok p ∧
      (⟨.st, some "Y1", none⟩ : Instruction) ∈ p := by
  refine ⟨valid_echoBehindPulse, ?_⟩
  have switch : echoBehindPulse.IsEntry ⟨"switch", .contact, {}, [("variable", .text "X1")]⟩ := by
    refine ⟨by simp [echoBehindPulse], by decide, fun serves => ?_⟩
    have hport := (serves.gates ⟨⟨"switch", "out"⟩, ⟨"gate", "in1"⟩⟩ (by decide) rfl).1
    exact absurd hport (by decide)
  have gate : echoBehindPulse.Traced ⟨true⟩ ⟨"gate", .and, {}, []⟩ :=
    .next (.entry switch) (.inr rfl) (c := ⟨⟨"switch", "out"⟩, ⟨"gate", "in1"⟩⟩) (by decide) rfl
      (by simp [echoBehindPulse]) rfl
  have pulse : echoBehindPulse.Traced ⟨true⟩ ⟨"pulse", .timerPulse, {}, []⟩ :=
    .next gate (.inr rfl) (c := ⟨⟨"gate", "out"⟩, ⟨"pulse", "in"⟩⟩) (by decide) rfl
      (by simp [echoBehindPulse]) rfl
  have lamp : echoBehindPulse.Traced ⟨true⟩ ⟨"lamp", .coil, {}, [("variable", .text "Y1")]⟩ :=
    .next pulse (.inr rfl) (c := ⟨⟨"pulse", "q"⟩, ⟨"lamp", "in"⟩⟩) (by decide) rfl
      (by simp [echoBehindPulse]) rfl
  have short : ∀ e ∈ echoBehindPulse.elements, e.quantity.isLong = false := by
    simp only [echoBehindPulse, List.forall_mem_cons]
    exact ⟨rfl, rfl, rfl, rfl, rfl, rfl, nofun⟩
  obtain ⟨-, written, -⟩ := written_trace_gives_reached valid_echoBehindPulse ⟨true⟩
  obtain ⟨p, ok, ⟨es, -, reached, traced⟩, -⟩ := written fun e traced => short e traced.mem_elements
  have hmem := List.mem_map_of_mem (f := echoBehindPulse.instruction?)
    ((reached _).mpr ⟨lamp, by decide, by decide⟩)
  rw [traced, List.mem_map] at hmem
  obtain ⟨i, hi, hgiven⟩ := hmem
  have hstore : some i = some ⟨.st, some "Y1", none⟩ := hgiven.trans (by rfl)
  exact ⟨p, ok, Option.some.inj hstore ▸ hi⟩

/-- A timer whose preset is the first integer that has too many digits. -/
def longTimer : Network where
  id := "n"
  elements := [⟨"delay", .timerOn, {}, [("preset", .num (.int (10 ^ Number.digitLimit : Nat)))]⟩]
  connections := []

/-- The network is valid, and its trace fails. -/
theorem long_preset_fails :
    longTimer.Valid ∧ longTimer.writtenTrace ⟨false⟩ = .error (.value .unwritable) := by
  have valid : longTimer.Valid := by decide
  obtain ⟨delay, member⟩ : ∃ e, e ∈ longTimer.elements := ⟨_, List.mem_singleton_self _⟩
  have same := List.mem_singleton.mp member
  have entry : longTimer.IsEntry delay := by
    refine ⟨member, nofun, fun serves => ?_⟩
    rcases serves.wired with ⟨c, none, -⟩
    cases none
  have long : delay.quantity.isLong = true := by
    rw [same]
    show Number.isLong (.int (10 ^ Number.digitLimit : Nat)) = true
    rw [Number.isLong_int_iff, Int.natAbs_natCast]
  have reached := ((order_spec valid.coherent ⟨false⟩).2 delay).mpr (.entry entry)
  exact ⟨valid, writtenTrace_error_iff.mpr ⟨⟨delay, reached, long⟩, rfl⟩⟩

end Network

end RungLogic
