import RungLogic.Proofs.Scan.Footprint

/-!
Networks as parts of larger ones. When each element of a network stands in another one, wherever in the
layout, and is wired there as before at the ports that it reads, then it is evaluated and scanned there
as in the first network; what had been kept and recorded before under other ids stays where it was.
-/

set_option autoImplicit false
set_option relaxedAutoImplicit false

namespace RungLogic

def Element.movedTo (e : Element) (p : Position) : Element := { e with position := p }

theorem Element.map_movedTo_position (es : List Element) :
    (es.map fun e => e.movedTo e.position) = es := List.map_id' es

namespace Table

variable {α : Type} {name : String} {t : Table α}

private theorem value?_append (h : name ∉ t.names) (u : Table α) :
    value? name (t ++ u) = u.value? name := by
  induction t with
  | nil => rfl
  | cons p rest ih =>
    obtain ⟨k, v⟩ := p
    obtain ⟨hne, hrest⟩ := not_or.mp (mt List.mem_cons.mpr h)
    rw [List.cons_append, value?, if_neg (Ne.symm hne)]
    exact ih hrest

private theorem put_append (h : name ∉ t.names) (v : α) (u : Table α) :
    put name v (t ++ u) = t ++ u.put name v := by
  induction t with
  | nil => rfl
  | cons p rest ih =>
    obtain ⟨k, w⟩ := p
    obtain ⟨hne, hrest⟩ := not_or.mp (mt List.mem_cons.mpr h)
    rw [List.cons_append, put, if_neg (Ne.symm hne), ih hrest]
    rfl

end Table

namespace Scan

/-- Each element of the first network stands in the second one, at its place, and at the ports that it
reads the first wires are the same. -/
structure PartOf (place : Element → Position) (n n' : Network) : Prop where
  element? : ∀ e ∈ n.elements, n'.element? e.id = some (e.movedTo (place e))
  feed? : ∀ e ∈ n.elements, ∀ port ∈ readPorts e.kind, feed? n' e.id port = feed? n e.id port

namespace Memory

/-- What evaluations leave, with what was kept, recorded and reported before them. -/
def before (earlier m : Memory) : Memory where
  states := m.states
  kept := earlier.kept ++ m.kept
  outputs := earlier.outputs ++ m.outputs
  notices := earlier.notices ++ m.notices

/-- A memory that keeps and records nothing under the ids of a network. -/
structure Foreign (n : Network) (m : Memory) : Prop where
  kept : ∀ e ∈ n.elements, e.id ∉ m.kept.names
  outputs : ∀ e ∈ n.elements, e.id ∉ m.outputs.names

variable {n : Network} {earlier : Memory} {id : String}

theorem foreign_empty (n : Network) : Foreign n {} :=
  ⟨fun _ _ h => (by cases h), fun _ _ h => (by cases h)⟩

private theorem before_remember (m : Memory) (state : Option ElementState) :
    (earlier.before m).remember id state = earlier.before (m.remember id state) := by
  cases state <;> rfl

private theorem before_say (m : Memory) (notices : List Notice) :
    (earlier.before m).say notices = earlier.before (m.say notices) := by
  simp only [before, say, List.append_assoc]

private theorem before_record (h : id ∉ earlier.outputs.names) (m : Memory) (s : Signal) :
    (earlier.before m).record id s = earlier.before (m.record id s) := by
  simp only [before, record, Table.put_append h]

end Memory

section

variable {w : Surroundings} {n' : Network} {place : Element → Position} {e : Element} {p : Position}
  {earlier : Memory}

private theorem secondSide_movedTo (store : Store) (e : Element) (p : Position) (inputs : Table Signal) :
    secondSide store (e.movedTo p) inputs = secondSide store e inputs := by
  have title : (e.movedTo p).title = e.title := rfl
  have operand : (e.movedTo p).operand = e.operand := rfl
  simp only [secondSide, namedOperand, title, operand]

private theorem compute_movedTo (w : Surroundings) (n' : Network) (e : Element) (p : Position)
    (inputs : Table Signal) (state : Option ElementState) :
    compute { w with network := n' } (e.movedTo p) inputs state = compute w e inputs state := by
  simp only [compute, twoSided, secondSide_movedTo]
  rfl

private theorem keptSignal?_before (foreign : earlier.Foreign w.network) (he : e ∈ w.network.elements)
    (m : Memory) : (earlier.before m).keptSignal? { w with network := n' } (e.movedTo p) =
      m.keptSignal? w e := by
  have value : Table.value? e.id (earlier.kept ++ m.kept) = m.kept.value? e.id :=
    Table.value?_append (foreign.kept e he) m.kept
  exact congrArg (if w.memoize && e.kind.isStateful then · else none) value

private theorem keep_before (foreign : earlier.Foreign w.network) (he : e ∈ w.network.elements) (m : Memory)
    (s : Signal) : (earlier.before m).keep { w with network := n' } (e.movedTo p) s =
      earlier.before (m.keep w e s) := by
  have put : Table.put e.id s (earlier.kept ++ m.kept) = earlier.kept ++ m.kept.put e.id s :=
    Table.put_append (foreign.kept e he) s m.kept
  change (if w.memoize && e.kind.isStateful then
    { earlier.before m with kept := Table.put e.id s (earlier.kept ++ m.kept) }
      else earlier.before m) = _
  rw [put, Memory.keep, apply_ite earlier.before]
  rfl

private theorem apply_before (foreign : earlier.Foreign w.network) (he : e ∈ w.network.elements)
    (inputs : Table Signal) (m : Memory) :
    apply { w with network := n' } (e.movedTo p) inputs (earlier.before m) =
      Prod.map id earlier.before (apply w e inputs m) := by
  have same : computed { w with network := n' } (e.movedTo p) inputs (earlier.before m) =
      computed w e inputs m := by
    rw [computed, compute_movedTo]
    rfl
  rcases hresult : (computed w e inputs m).result with fault | s
  · have hresult' := hresult
    rw [← same] at hresult'
    rw [apply_of_error hresult, apply_of_error hresult', same, Memory.before_remember,
      Memory.before_say]
    rfl
  · have hresult' := hresult
    rw [← same] at hresult'
    rw [apply_of_result hresult, apply_of_result hresult', same, Memory.before_remember,
      Memory.before_say, keep_before foreign he]
    exact congrArg _ (Memory.before_record (foreign.outputs e he) _ _)

private theorem arrive_before (e : Element) (p : Position) (port : String)
    (o : Except Error Signal × Memory) :
    arrive (e.movedTo p) port (Prod.map id earlier.before o) =
      Prod.map id earlier.before (arrive e port o) := by
  obtain ⟨fault | s, m⟩ := o
  · rfl
  · rfl

private theorem applyTo_before (foreign : earlier.Foreign w.network) (he : e ∈ w.network.elements)
    (o : Except Error (Table Signal) × Memory) :
    applyTo { w with network := n' } (e.movedTo p) (Prod.map id earlier.before o) =
      Prod.map id earlier.before (applyTo w e o) := by
  obtain ⟨fault | inputs, m⟩ := o
  · rfl
  · exact apply_before foreign he inputs m

private theorem keptOr_before (foreign : earlier.Foreign w.network) (he : e ∈ w.network.elements)
    (m : Memory) (o : Except Error Signal × Memory) :
    keptOr { w with network := n' } (e.movedTo p) (earlier.before m) (Prod.map id earlier.before o) =
      Prod.map id earlier.before (keptOr w e m o) := by
  rw [keptOr, keptSignal?_before foreign he, keptOr]
  cases m.keptSignal? w e <;> rfl

private theorem PartOf.pending (part : PartOf place w.network n') (he : e ∈ w.network.elements) :
    (Frame.fresh n' (e.movedTo p)).pending = (Frame.fresh w.network e).pending := by
  refine List.filterMap_congr fun port hport => ?_
  exact congrArg _ (part.feed? e he port hport)

private theorem gather_closed {up : List String} {port : String} {r : PortEnd}
    {rest : List (String × PortEnd)} {source : Element} {inputs : Table Signal} {m : Memory}
    (found : w.network.element? r.element = some source) (closed : source.id ∉ up) :
    gather w up ((port, r) :: rest) inputs m =
      match arrive source r.port (descend w up source m) with
      | (.ok s, m) => gather w up rest (inputs.put port s) m
      | (.error fault, m) => (.error fault, m) := by
  rw [gather]
  split
  · rename_i missing
    rw [found] at missing
    cases missing
  · rename_i source' found'
    rw [found] at found'
    obtain rfl := Option.some.inj found'
    rw [dif_neg closed]
    rfl

private theorem gather_opened {up : List String} {port : String} {r : PortEnd}
    {rest : List (String × PortEnd)} {source : Element} {inputs : Table Signal} {m : Memory}
    (found : w.network.element? r.element = some source) (opened : source.id ∈ up) :
    gather w up ((port, r) :: rest) inputs m = (.error (.cycle (loopBack up source.id)), m) := by
  rw [gather]
  split
  · rename_i missing
    rw [found] at missing
    cases missing
  · rename_i source' found'
    rw [found] at found'
    obtain rfl := Option.some.inj found'
    rw [dif_pos opened]

private theorem exists_pending_source {n : Network} (coherent : n.Coherent) (e : Element) :
    ∀ p ∈ (Frame.fresh n e).pending, ∃ source, n.element? p.2.element = some source := by
  intro p hp
  obtain ⟨source, -, found, -⟩ := exists_source coherent (mem_pending_fresh.mp hp).2
  exact ⟨source, found⟩

private theorem PartOf.source (part : PartOf place w.network n') {id : String} {source : Element}
    (found : w.network.element? id = some source) :
    n'.element? id = some (source.movedTo (place source)) := by
  rw [← Network.id_of_element? found]
  exact part.element? source (Network.mem_of_element? found)

private theorem descend_before_of_gather (part : PartOf place w.network n')
    (foreign : earlier.Foreign w.network) (he : e ∈ w.network.elements) {up : List String} {m : Memory}
    (read : gather { w with network := n' } (e.id :: up) (Frame.fresh w.network e).pending []
      (earlier.before m) = Prod.map id earlier.before
        (gather w (e.id :: up) (Frame.fresh w.network e).pending [] m)) :
    descend { w with network := n' } up (e.movedTo p) (earlier.before m) =
      Prod.map id earlier.before (descend w up e m) := by
  have ports : gather { w with network := n' } ((e.movedTo p).id :: up)
      (Frame.fresh n' (e.movedTo p)).pending [] (earlier.before m) = _ :=
    (congrArg (gather _ _ · _ _) (part.pending he)).trans read
  rw [descend, ports, applyTo_before foreign he, keptOr_before foreign he]
  rfl

/-- Ports are read in the larger network as in the part. The same elements are open at each point, so
that the same cycles are closed. The induction is on the recursion in the part. -/
private theorem gather_before (part : PartOf place w.network n') (coherent : w.network.Coherent)
    (foreign : earlier.Foreign w.network) (up : List String) {ports : List (String × PortEnd)}
    (sources : ∀ p ∈ ports, ∃ source, w.network.element? p.2.element = some source)
    (inputs : Table Signal) (m : Memory) :
    gather { w with network := n' } up ports inputs (earlier.before m) =
      Prod.map id earlier.before (gather w up ports inputs m) := by
  fun_induction gather w up ports inputs m with
  | case1 =>
    rw [gather]
    rfl
  | case2 up inputs m port r rest missing =>
    obtain ⟨source, found⟩ := sources _ List.mem_cons_self
    rw [missing] at found
    cases found
  | case3 up inputs m port r rest source found opened =>
    have opened' : (source.movedTo (place source)).id ∈ up := opened
    rw [gather_opened (part.source found) opened']
    rfl
  | case4 up inputs m port r rest source found closed _ s m₁ arrived ihSource ihRest =>
    have he := Network.mem_of_element? found
    have read := ihSource (exists_pending_source coherent source)
    have same : arrive source r.port (descend w up source m) = (.ok s, m₁) := arrived
    have closed' : (source.movedTo (place source)).id ∉ up := closed
    rw [gather_closed (part.source found) closed', descend_before_of_gather part foreign he read,
      arrive_before, same]
    exact ihRest (List.forall_mem_cons.mp sources).2
  | case5 up inputs m port r rest source found closed _ fault m₁ arrived ihSource =>
    have he := Network.mem_of_element? found
    have read := ihSource (exists_pending_source coherent source)
    have same : arrive source r.port (descend w up source m) = (.error fault, m₁) := arrived
    have closed' : (source.movedTo (place source)).id ∉ up := closed
    rw [gather_closed (part.source found) closed', descend_before_of_gather part foreign he read,
      arrive_before, same]
    rfl

private theorem evaluate_before (part : PartOf place w.network n') (coherent : w.network.Coherent)
    (foreign : earlier.Foreign w.network) (he : e ∈ w.network.elements) (m : Memory) :
    evaluate { w with network := n' } (e.movedTo p) (earlier.before m) =
      Prod.map id earlier.before (evaluate w e m) := by
  rw [evaluate_eq_descend, evaluate_eq_descend]
  exact descend_before_of_gather part foreign he
    (gather_before part coherent foreign _ (exists_pending_source coherent e) _ _)

private theorem readPort_before (part : PartOf place w.network n') (coherent : w.network.Coherent)
    (foreign : earlier.Foreign w.network) {r : PortEnd} {source : Element}
    (found : w.network.element? r.element = some source) (m : Memory) :
    readPort { w with network := n' } r (earlier.before m) =
      Prod.map id earlier.before (readPort w r m) := by
  have found' := part.source found
  have evaluated := evaluate_before (p := place source) part coherent foreign
    (Network.mem_of_element? found) m
  rcases h : evaluate w source m with ⟨fault | s, m₁⟩
  · rw [h] at evaluated
    simp only [readPort, found, found', h, evaluated]
    rfl
  · rw [h] at evaluated
    simp only [readPort, found, found', h, evaluated]
    rfl

end

section

variable {setting : Setting} {n n' : Network} {place : Element → Position} {e : Element}
  {earlier : Memory}

/-- The variables and the memory in the course of a scan, with what was left before it. -/
def Progress.behind (p : Progress) (earlier : Memory) : Progress :=
  { p with memory := earlier.before p.memory }

private theorem PartOf.coilLine? (part : PartOf place n n') (he : e ∈ n.elements) :
    Scan.coilLine? n' (e.movedTo (place e)) = Scan.coilLine? n e := by
  rcases hkind : e.kind.isCoil with _ | _
  · have hkind' : (e.movedTo (place e)).kind.isCoil = false := hkind
    simp only [Scan.coilLine?, hkind, hkind', Bool.false_eq_true, if_false]
  · have hport : "in" ∈ readPorts e.kind := readPorts_of_isCoil hkind ▸ List.mem_cons_self
    have feed : Scan.feed? n' (e.movedTo (place e)).id "in" = _ := part.feed? e he "in" hport
    simp only [Scan.coilLine?, feed]
    rfl

private theorem writeCoil_behind (foreign : earlier.Foreign n) (he : e ∈ n.elements) (place : Position)
    (target : String) (b : Bool) (p : Progress) :
    writeCoil (e.movedTo place) target b (p.behind earlier) =
      (writeCoil e target b p).behind earlier := by
  have record : (earlier.before p.memory).record e.id (.truth b) = _ :=
    Memory.before_record (foreign.outputs e he) p.memory (.truth b)
  have title : (e.movedTo place).title = e.title := rfl
  have id : (e.movedTo place).id = e.id := rfl
  rcases hwrite : p.store.write (.text target) (.bool b) with fault | store
  · simp only [writeCoil, Progress.behind, hwrite, id, title, record, Memory.before_say]
  · simp only [writeCoil, Progress.behind, hwrite, id, record]

/-- Elements of a part are scanned in the larger network as in the part. -/
theorem scan_before (setting : Setting) (part : PartOf place setting.network n')
    (coherent : setting.network.Coherent)
    (foreign : earlier.Foreign setting.network) {es : List Element}
    (sub : ∀ e ∈ es, e ∈ setting.network.elements) (p : Progress) :
    scanElements { setting with network := n' } (es.map fun e => e.movedTo (place e))
        (p.behind earlier) =
      Prod.map id (Progress.behind · earlier) (scanElements setting es p) := by
  have reads {e : Element} {source : PortEnd} {target : String} (p : Progress)
      (line : Scan.coilLine? setting.network e = some (source, target))
      (he : e ∈ setting.network.elements) :
      readPort (Setting.over { setting with network := n' } p.store) source (earlier.before p.memory) =
        Prod.map id earlier.before (readPort (setting.over p.store) source p.memory) := by
    obtain ⟨feeder, -, found, -⟩ := exists_source coherent (coilLine?_eq_some_iff.mp line).2.1
    exact readPort_before (w := setting.over p.store) part coherent foreign found p.memory
  fun_induction scanElements setting es p with
  | case1 p => rfl
  | case2 e rest p line ih =>
    obtain ⟨he, sub⟩ := List.forall_mem_cons.mp sub
    rw [List.map_cons, scanElements, part.coilLine? he, line]
    exact ih sub
  | case3 e rest p source target line fault m read =>
    obtain ⟨he, -⟩ := List.forall_mem_cons.mp sub
    have brings := reads p line he
    rw [read] at brings
    rw [List.map_cons, scanElements, part.coilLine? he, line]
    simp only [Progress.behind, brings, Prod.map]
    rfl
  | case4 e rest p source target line s m read ih =>
    obtain ⟨he, sub⟩ := List.forall_mem_cons.mp sub
    have brings := reads p line he
    have written := writeCoil_behind foreign he (place e) target (coilValue e s) ⟨p.store, m⟩
    rw [read] at brings
    rw [List.map_cons, scanElements, part.coilLine? he, line, ← ih sub, ← written]
    simp only [Progress.behind, brings, Prod.map]
    rfl

/-- Where each element keeps its place, a part is scanned in the larger network as by itself. -/
theorem scan_in_place (setting : Setting) (part : PartOf Element.position setting.network n')
    (coherent : setting.network.Coherent) (foreign : earlier.Foreign setting.network)
    (p : Progress) :
    scanElements { setting with network := n' } setting.network.elements (p.behind earlier) =
      Prod.map id (Progress.behind · earlier)
        (scanElements setting setting.network.elements p) := by
  have scan := scan_before setting part coherent foreign (fun e he => he) p
  rwa [Element.map_movedTo_position] at scan

end

end Scan

end RungLogic
