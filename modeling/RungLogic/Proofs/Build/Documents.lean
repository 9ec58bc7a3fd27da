import RungLogic.Proofs.Build.RoundTrip
import RungLogic.Proofs.Instruction.Canonical
import RungLogic.Proofs.Instruction.Document
import RungLogic.Proofs.Network.Changes
import RungLogic.Proofs.Text.Feeds

/-!
Built networks and traced programs as documents. A built network is valid, and its document holds no
reals, so the network is kept by a JSON text. A program that has been read from a text stays one
that a text keeps when it is brought into normal form.
-/

set_option autoImplicit false
set_option relaxedAutoImplicit false

namespace RungLogic

/-- An element as it is laid: it has a fresh id, stands at whole coordinates, and has at most one
property, which is a text or null. -/
structure Element.IsPlain (e : Element) : Prop where
  named : Text.isName e.id = true
  whole : ∃ x y : Int, e.position = ⟨.int x, .int y⟩
  properties : e.properties = [] ∨ ∃ name operand, e.properties = [(name, .ofText? operand)]

namespace Element

private theorem isReference_ofText? (s : Option String) : isReference (.ofText? s) = true := by
  cases s <;> rfl

private theorem isQuantity_ofText? (s : Option String) : isQuantity (.ofText? s) = true := by
  cases s <;> rfl

private theorem field_single (name key : String) (operand : Option String) :
    RawProperties.field key (RawProperties.ofTable [(name, .ofText? operand)]) = .ofText? operand ∨
      RawProperties.field key (RawProperties.ofTable [(name, .ofText? operand)]) = .null := by
  by_cases h : name = key <;> simp [RawProperties.ofTable, RawProperties.field, h]

private theorem propertyFaults_single (name : String) (operand : Option String) :
    propertyFaults (RawProperties.ofTable [(name, .ofText? operand)]) = [] := by
  have reference : isReference (RawProperties.field "variable"
      (RawProperties.ofTable [(name, .ofText? operand)])) = true := by
    rcases field_single name "variable" operand with h | h <;> rw [h]
    · exact isReference_ofText? operand
    · rfl
  have quantity (key : String) : isQuantity (RawProperties.field key
      (RawProperties.ofTable [(name, .ofText? operand)])) = true := by
    rcases field_single name key operand with h | h <;> rw [h]
    · exact isQuantity_ofText? operand
    · rfl
  have keys : (RawProperties.ofTable [(name, .ofText? operand)]).filter
      (fun p => p.1.text?.isNone) = [] := rfl
  rw [propertyFaults, keys, reference, quantity "preset", quantity "operand"]
  rfl

private theorem portFaults_ports (side : Side) (k : Kind)
    (named : ∀ port ∈ k.ports side, Text.isName port = true) :
    portFaults side (some k) ((k.ports side).map .text) = [] := by
  have names : ((k.ports side).map Value.text).all Value.isName = true := by
    simpa [Value.isName_text] using named
  simp [portFaults, names, Value.text?]

theorem IsPlain.valid {e : Element} (h : e.IsPlain) : e.Valid := by
  have properties : propertyFaults (RawProperties.ofTable e.properties) = [] := by
    rcases h.properties with none | ⟨name, operand, one⟩
    · rw [none]
      rfl
    · rw [one]
      exact propertyFaults_single name operand
  apply (Draft.faults_eq_nil_iff e.draft).mpr
  rw [show kindOf? e.draft.kind = some e.kind from kindOf?_name e.kind]
  refine ⟨?_, rfl, rfl, ?_, ?_, _, rfl, properties⟩
  · rw [← h.named]
    exact Value.isName_text e.id
  · exact portFaults_ports .inputs e.kind fun _ => Kind.isName_of_mem_inputs
  · exact portFaults_ports .outputs e.kind fun _ => Kind.isName_of_mem_outputs

private theorem IsPlain.short {e : Element} (h : e.IsPlain) : e.quantity.isLong = false := by
  have field (key : String) : (Value.field key e.properties).isLong = false := by
    rcases h.properties with none | ⟨name, operand, one⟩
    · rw [none]
      rfl
    · rw [one, Value.field, Table.value?]
      split
      · cases operand <;> rfl
      · rfl
  unfold quantity
  split
  all_goals first | exact field "preset" | exact field "operand" | rfl

private theorem exact_portEntries (ports : List String) : Json.Exact (portEntries ports) := by
  have items : Json.ExactItems (ports.map fun p => .record [("id", .text p)]) := by
    rw [Json.exactItems_iff]
    intro v hv
    obtain ⟨p, -, rfl⟩ := List.mem_map.mp hv
    simp [Json.Exact, Json.ExactEntries, Table.names]
  exact items

private theorem IsPlain.exact_entry {e : Element} (h : e.IsPlain) : Json.Exact e.entry := by
  obtain ⟨x, y, place⟩ := h.whole
  have properties : Json.Exact (.record e.properties) := by
    rcases h.properties with none | ⟨name, operand, one⟩
    · rw [none]
      simp [Json.Exact, Json.ExactEntries, Table.names]
    · rw [one]
      simp [Json.Exact, Json.ExactEntries, Table.names, Instruction.exact_ofText?]
  simp [entry, place, Json.Exact, Json.ExactEntries, Table.names, exact_portEntries] at properties ⊢
  exact properties

end Element

private theorem Connection.exact_entry (c : Connection) : Json.Exact c.entry := by
  simp [entry, endEntry, Json.Exact, Json.ExactEntries, Table.names]

namespace Cursor

private theorem isPlain_element (c : Cursor) (kind : Kind) (ahead : Nat) {properties : Table Value}
    (h : properties = [] ∨ ∃ name operand, properties = [(name, .ofText? operand)]) :
    (c.element kind ahead properties).1.IsPlain :=
  ⟨Supply.isName_nth _, ⟨_, _, rfl⟩, h⟩

private theorem isPlain_laid (c : Cursor) (operand : Option String) (cell : Cell) :
    ∀ e ∈ (c.laid operand cell).elements, e.IsPlain := by
  have one (name : String) (value : Option String) :
      ([(name, Value.ofText? value)] : Table Value) = [] ∨
        ∃ key operand, [(name, Value.ofText? value)] = [(key, Value.ofText? operand)] :=
    .inr ⟨name, value, rfl⟩
  intro e he
  cases cell with
  | load kind | store kind =>
    obtain rfl := List.mem_singleton.mp he
    exact c.isPlain_element kind 0 (one "variable" operand)
  | gate side kind =>
    rcases List.mem_cons.mp he with rfl | he
    · exact c.isPlain_element side 0 (one "variable" operand)
    · obtain rfl := List.mem_singleton.mp he
      exact isPlain_element _ kind 2 (.inl rfl)
  | invert =>
    obtain rfl := List.mem_singleton.mp he
    exact c.isPlain_element .not 0 (.inl rfl)
  | preset kind fallback =>
    obtain rfl := List.mem_singleton.mp he
    exact c.isPlain_element kind 0 (one "preset" (some (orElse operand fallback)))
  | operand kind =>
    obtain rfl := List.mem_singleton.mp he
    exact c.isPlain_element kind 0 (one "operand" operand)

private theorem isPlain_laids (c : Cursor) (p : Program) : ∀ e ∈ laidElements (c.laids p), e.IsPlain := by
  induction p generalizing c with
  | nil =>
    intro e he
    cases he
  | cons i rest ih =>
    intro e he
    rcases hcell : i.operator.cell? with _ | cell
    · simp only [laids, hcell] at he
      exact ih c e he
    · simp only [laids, hcell] at he
      rcases List.mem_append.mp he with he | he
      · exact c.isPlain_laid i.operand cell e he
      · exact ih _ e he

end Cursor

namespace Program

variable {p : Program} {supply : Supply} {n : Network}

theorem isPlain_of_build (h : (p.build supply).1 = .ok n) : ∀ e ∈ n.elements, e.IsPlain := by
  obtain ⟨id, next, built⟩ := p.build_eq supply
  rw [built] at h
  obtain rfl := Except.ok.inj h
  exact Cursor.isPlain_laids _ p

theorem valid_of_build (h : (p.build supply).1 = .ok n) : n.Valid := by
  have plain := isPlain_of_build h
  obtain ⟨same, named, body⟩ := (Network.check_ok_iff _ n).mp h
  rw [← same] at named body
  exact ((Network.coherent_iff n).mpr body).valid named fun e he => (plain e he).valid

theorem writtenTrace_of_build (h : (p.build supply).1 = .ok n) (o : TraceOptions) :
    n.writtenTrace o = .ok (n.trace o) := by
  have reached := (Network.order_spec (valid_of_build h).coherent o).2
  exact Network.writtenTrace_of_short fun e he =>
    (isPlain_of_build h e ((reached e).mp he).mem_elements).short

theorem exact_of_build (h : (p.build supply).1 = .ok n) : Json.Exact n.document := by
  have elements : Json.ExactItems (n.elements.map Element.entry) := by
    rw [Json.exactItems_iff]
    intro v hv
    obtain ⟨e, he, rfl⟩ := List.mem_map.mp hv
    exact (isPlain_of_build h e he).exact_entry
  have connections : Json.ExactItems (n.connections.map Connection.entry) := by
    rw [Json.exactItems_iff]
    intro v hv
    obtain ⟨c, -, rfl⟩ := List.mem_map.mp hv
    exact c.exact_entry
  simp [Network.document, Json.Exact, Json.ExactEntries, Table.names, elements, connections]

end Program

namespace Instruction

private theorem canonical_bare (o : Operator) {operand : Option String}
    (h : ∀ a ∈ operand, a ≠ "" ∧ a = " ".intercalate (Text.words a)) :
    Canonical ⟨o, operand, none⟩ := by
  refine ⟨h, ?_⟩
  intro m hm
  cases hm

/-- A preset stays canonical, and so do those that replace a missing one. -/
private theorem canonical_preset {i : Instruction} (h : i.Canonical) (fallback : String)
    (hf : fallback ≠ "" ∧ fallback = " ".intercalate (Text.words fallback)) :
    Canonical ⟨i.operator, some ((i.operand.filter (· ≠ "")).getD fallback), none⟩ := by
  apply canonical_bare
  intro a ha
  obtain rfl := Option.some.inj ha
  cases given : i.operand with
  | none => exact hf
  | some b =>
    obtain ⟨some, words⟩ := h.operand b given
    have kept : ((Option.some b).filter (· ≠ "")).getD fallback = b := by simp [Option.filter, some]
    rw [kept]
    exact ⟨some, words⟩

private theorem Canonical.normal {i : Instruction} (h : i.Canonical) (loaded : Bool) :
    ∀ j ∈ i.normal loaded, j.Canonical := by
  have kept (o : Operator) : Canonical ⟨o, i.operand, none⟩ := canonical_bare o h.operand
  have alone (o : Operator) : Canonical ⟨o, none, none⟩ := canonical_bare o (by simp)
  have timer := canonical_preset h "T#1s" (by decide)
  have counter := canonical_preset h "10" (by decide)
  have pair (a b : Instruction) (ha : a.Canonical) (hb : b.Canonical) :
      ∀ j ∈ [a, b], j.Canonical := by
    intro j hj
    rcases List.mem_pair.mp hj with rfl | rfl
    · exact ha
    · exact hb
  obtain ⟨op, operand, modifier⟩ := i
  cases op with
  | xor | tp | ctud | r | s => simp [Instruction.normal]
  | ld | ldn | st | stn | add | sub | mul | div | gt | ge | eq | ne | le | lt =>
    exact List.forall_mem_singleton.mpr (kept _)
  | not => exact List.forall_mem_singleton.mpr (alone .not)
  | ton | tof => exact List.forall_mem_singleton.mpr timer
  | ctu | ctd => exact List.forall_mem_singleton.mpr counter
  | and | andn | or | orn =>
    cases loaded
    · exact pair _ _ (kept _) (alone _)
    · exact List.forall_mem_singleton.mpr (kept _)

end Instruction

namespace Program

theorem canonical_normalizeFrom {p : Program} (h : ∀ i ∈ p, i.Canonical) (loaded : Bool) :
    ∀ i ∈ p.normalizeFrom loaded, i.Canonical := by
  induction p generalizing loaded with
  | nil => simp [normalizeFrom]
  | cons i rest ih =>
    intro j hj
    rcases List.mem_append.mp hj with hj | hj
    · exact (h i List.mem_cons_self).normal loaded j hj
    · exact ih (fun j hj => h j (List.mem_cons_of_mem i hj)) _ j hj

theorem parse_text_feed {p : Program} (h : ∀ i ∈ p, i.Canonical) :
    parse (p.text ++ "\n") = .ok p := by
  by_cases empty : p = []
  · subst empty
    rfl
  · have lines : ∀ l ∈ p.map Instruction.text, ∀ c ∈ l.toList, Text.isBreak c = false := by
      intro l hl
      obtain ⟨i, hi, rfl⟩ := List.mem_map.mp hl
      exact (h i hi).line_text.2
    rw [parse, text, Text.lines_intercalate_feed (by simpa using empty) lines, parseFrom_texts h]

theorem parse_readText (s : String) : parse (Text.readText s) = parse s := by
  rw [parse, Text.lines_readText, parse]

end Program

end RungLogic
