import RungLogic.Network

/-!
The parts of a network: what the checks on drafts, on the ends of wires and on networks come to.
What is accepted is what the part that is made says of itself: nothing is lost and nothing is added.
-/

set_option autoImplicit false
set_option relaxedAutoImplicit false

namespace RungLogic

theorem Value.eq_text_of_text? {v : Value} {s : String} (h : v.text? = some s) : v = .text s := by
  cases v with
  | text t =>
    have same : t = s := Option.some.inj h
    rw [same]
  | _ => cases h

theorem Value.name?_text_of_isName {s : String} (h : Text.isName s = true) :
    (Value.text s).name? = some s := by
  simp [Value.name?, h]

theorem Value.name?_eq_some {v : Value} {s : String} (h : v.name? = some s) :
    v = .text s ∧ Text.isName s = true := by
  cases v with
  | text t =>
    simp only [Value.name?, Option.ite_none_right_eq_some, Option.some.injEq] at h
    obtain ⟨named, rfl⟩ := h
    exact ⟨rfl, named⟩
  | _ => cases h

theorem Value.isName_text (s : String) : (Value.text s).isName = Text.isName s := by
  by_cases h : Text.isName s <;> simp [Value.isName, Value.name?, h]

theorem Placement.eq_of_position? {p : Placement} {at_ : Position} (h : p.position? = some at_) :
    p = .coords (.num at_.x) (.num at_.y) := by
  unfold Placement.position? at h
  split at h
  · obtain rfl := Option.some.inj h
    rfl
  · cases h

theorem mapError_ok_iff {α ε δ : Type} (result : Except ε α) (f : ε → δ) (a : α) :
    result.mapError f = .ok a ↔ result = .ok a := by
  cases result with
  | ok b =>
    constructor
    · intro h
      rw [Except.ok.inj h]
    · intro h
      rw [Except.ok.inj h]
      rfl
  | error e => constructor <;> intro h <;> cases h

theorem faultUnless_eq_nil_iff (b : Bool) (f : Fault) :
    (if b = true then [] else [f]) = ([] : List Fault) ↔ b = true := by
  cases b <;> simp

namespace Element

private theorem kindOf?_eq_some {v : Value} {k : Kind} (h : kindOf? v = some k) : v = .text k.name := by
  obtain ⟨word, hv, hw⟩ := Option.bind_eq_some_iff.mp h
  rw [Value.eq_text_of_text? hv, Kind.name_of_ofName? hw]

theorem kindOf?_name (k : Kind) : kindOf? (.text k.name) = some k := Kind.ofName?_name k

namespace RawProperties

private theorem table?_ofTable (t : Table Value) : table? (ofTable t) = some t := by
  induction t with
  | nil => rfl
  | cons p rest ih =>
    have : table? (List.map (fun p => (Value.text p.1, p.2)) rest) = some rest := ih
    simp [ofTable, table?, Value.text?, this]

private theorem eq_ofTable_of_table? {ps : RawProperties} {t : Table Value} (h : ps.table? = some t) :
    ps = ofTable t := by
  induction ps generalizing t with
  | nil =>
    obtain rfl := Option.some.inj h
    rfl
  | cons p rest ih =>
    obtain ⟨key, value⟩ := p
    obtain ⟨name, hkey, h⟩ := Option.bind_eq_some_iff.mp h
    obtain ⟨others, hrest, h⟩ := Option.bind_eq_some_iff.mp h
    obtain rfl := Option.some.inj h
    rw [Value.eq_text_of_text? hkey, ih hrest]
    rfl

theorem ofTable_inj {s t : Table Value} (h : ofTable s = ofTable t) : s = t := by
  have tables := congrArg table? h
  rw [table?_ofTable, table?_ofTable] at tables
  exact Option.some.inj tables

theorem field_ofTable (name : String) (t : Table Value) :
    field name (ofTable t) = Value.field name t := by
  induction t with
  | nil => rfl
  | cons p rest ih =>
    obtain ⟨key, value⟩ := p
    have ih' : field name (rest.map fun p => (Value.text p.1, p.2)) = Value.field name rest := ih
    by_cases same : key = name <;>
      simp_all [ofTable, field, Value.field, Table.value?]

private theorem isSome_table? {ps : RawProperties} (h : ∀ p ∈ ps, p.1.text?.isSome = true) :
    ps.table?.isSome = true := by
  induction ps with
  | nil => rfl
  | cons p rest ih =>
    obtain ⟨key, value⟩ := p
    obtain ⟨name, hkey⟩ := Option.isSome_iff_exists.mp (h (key, value) List.mem_cons_self)
    obtain ⟨t, ht⟩ :=
      Option.isSome_iff_exists.mp (ih fun q hq => h q (List.mem_cons_of_mem _ hq))
    have hkey : key.text? = some name := hkey
    simp [table?, hkey, ht]

end RawProperties

private theorem eq_map_text_of_map_text? {vs : List Value} {ports : List String}
    (h : vs.map Value.text? = ports.map some) : vs = ports.map .text := by
  induction vs generalizing ports with
  | nil =>
    have : ports = [] := by simpa using h.symm
    rw [this]
    rfl
  | cons v rest ih =>
    cases ports with
    | nil => simp at h
    | cons p ports =>
      rw [List.map_cons, List.map_cons, List.cons.injEq] at h
      rw [List.map_cons, Value.eq_text_of_text? h.1, ← ih h.2]

theorem Draft.faults_eq_nil_iff (d : Draft) :
    d.faults = [] ↔ d.id.isName = true ∧ (kindOf? d.kind).isSome = true ∧
      d.position.position?.isSome = true ∧ portFaults .inputs (kindOf? d.kind) d.inputs = [] ∧
      portFaults .outputs (kindOf? d.kind) d.outputs = [] ∧
      ∃ ps, d.properties = some ps ∧ propertyFaults ps = [] := by
  obtain ⟨id, kind, position, inputs, outputs, properties⟩ := d
  cases properties <;>
    simp only [Draft.faults, List.append_eq_nil_iff, faultUnless_eq_nil_iff, and_assoc] <;> simp

private theorem ports_of_portFaults {side : Side} {k : Kind} {ports : List Value}
    (h : portFaults side (some k) ports = []) : ports = (k.ports side).map .text := by
  unfold portFaults at h
  split at h
  · cases h
  · by_cases same : ports.map Value.text? = (k.ports side).map some
    · exact eq_map_text_of_map_text? same
    · simp [same] at h

private theorem keys_of_propertyFaults {ps : RawProperties} (h : propertyFaults ps = []) :
    ∀ p ∈ ps, p.1.text?.isSome = true := by
  simp only [propertyFaults, List.append_eq_nil_iff, List.map_eq_nil_iff,
    List.filter_eq_nil_iff] at h
  intro p hp
  have := h.1.1.1 p hp
  rwa [Option.isNone_iff_eq_none, ← ne_eq, Option.ne_none_iff_isSome] at this

private theorem Draft.isSome_element? {d : Draft} (h : d.faults = []) : d.element?.isSome = true := by
  obtain ⟨id, kind, position, -, -, ps, hps, properties⟩ := d.faults_eq_nil_iff.mp h
  obtain ⟨name, hname⟩ := Option.isSome_iff_exists.mp id
  obtain ⟨k, hk⟩ := Option.isSome_iff_exists.mp kind
  obtain ⟨p, hp⟩ := Option.isSome_iff_exists.mp position
  obtain ⟨t, ht⟩ :=
    Option.isSome_iff_exists.mp (RawProperties.isSome_table? (keys_of_propertyFaults properties))
  simp [Draft.element?, hname, hk, hp, hps, ht]

private theorem Draft.check_error_iff (d : Draft) (faults : List Fault) :
    d.check = .error faults ↔ d.faults ≠ [] ∧ faults = d.faults := by
  unfold Draft.check
  cases hf : d.faults with
  | nil =>
    obtain ⟨e, he⟩ := Option.isSome_iff_exists.mp (Draft.isSome_element? hf)
    simp [he]
  | cons f fs => simp [eq_comm]

theorem Draft.check_ne_nil (d : Draft) : d.check ≠ .error [] := by
  intro h
  obtain ⟨some, none⟩ := (d.check_error_iff []).mp h
  exact some none.symm

private theorem element?_draft {e : Element} (h : e.Valid) : e.draft.element? = some e := by
  obtain ⟨id, -⟩ := e.draft.faults_eq_nil_iff.mp h
  have named : Text.isName e.id = true := by
    rwa [← Value.isName_text]
  have hid : (Value.text e.id).name? = some e.id := Value.name?_text_of_isName named
  simp [Draft.element?, draft, hid, kindOf?_name, Placement.position?,
    RawProperties.table?_ofTable]

theorem check_draft {e : Element} (h : e.Valid) : e.draft.check = .ok e := by
  have made := element?_draft h
  have nothing : e.draft.faults = [] := h
  simp [Draft.check, nothing, made]

theorem Draft.check_ok_iff (d : Draft) (e : Element) :
    d.check = .ok e ↔ d = e.draft ∧ e.Valid := by
  constructor
  · intro h
    obtain ⟨nothing, made⟩ : d.faults = [] ∧ d.element? = some e := by
      unfold Draft.check at h
      split at h
      · rename_i nothing made
        obtain rfl := Except.ok.inj h
        exact ⟨nothing, made⟩
      · cases h
    obtain ⟨id, hid, made⟩ := Option.bind_eq_some_iff.mp made
    obtain ⟨kind, hkind, made⟩ := Option.bind_eq_some_iff.mp made
    obtain ⟨position, hposition, made⟩ := Option.bind_eq_some_iff.mp made
    obtain ⟨properties, hproperties, made⟩ := Option.bind_eq_some_iff.mp made
    obtain ⟨raw, hraw, htable⟩ := Option.bind_eq_some_iff.mp hproperties
    obtain rfl := Option.some.inj made
    obtain ⟨-, -, -, inputs, outputs, -⟩ := d.faults_eq_nil_iff.mp nothing
    rw [hkind] at inputs outputs
    have same : d = Element.draft ⟨id, kind, position, properties⟩ := by
      obtain ⟨did, dkind, dposition, dinputs, doutputs, dproperties⟩ := d
      simp only [draft, Draft.mk.injEq]
      refine ⟨(Value.name?_eq_some hid).1, kindOf?_eq_some hkind,
        Placement.eq_of_position? hposition, ports_of_portFaults inputs,
        ports_of_portFaults outputs, ?_⟩
      rw [← RawProperties.eq_ofTable_of_table? htable]
      exact hraw
    refine ⟨same, ?_⟩
    rw [Valid, ← same]
    exact nothing
  · rintro ⟨rfl, valid⟩
    exact check_draft valid

theorem Draft.exists_check_ok_iff (d : Draft) : (∃ e, d.check = .ok e) ↔ d.faults = [] := by
  constructor
  · rintro ⟨e, accepted⟩
    obtain ⟨rfl, valid⟩ := (d.check_ok_iff e).mp accepted
    exact valid
  · intro none
    cases result : d.check with
    | ok e => exact ⟨e, rfl⟩
    | error faults => exact absurd none ((d.check_error_iff faults).mp result).1

theorem Valid.named {e : Element} (h : e.Valid) : Text.isName e.id = true := by
  obtain ⟨id, -⟩ := e.draft.faults_eq_nil_iff.mp h
  rwa [← Value.isName_text]

theorem Valid.isQuantity {e : Element} (h : e.Valid) :
    isQuantity e.preset = true ∧ isQuantity e.operand = true := by
  obtain ⟨-, -, -, -, -, ps, hps, faultless⟩ := e.draft.faults_eq_nil_iff.mp h
  obtain rfl : RawProperties.ofTable e.properties = ps := Option.some.inj hps
  simp only [propertyFaults, List.append_eq_nil_iff, faultUnless_eq_nil_iff,
    RawProperties.field_ofTable] at faultless
  exact ⟨faultless.1.2, faultless.2⟩

end Element

private theorem named_of_endFaults {side : End} {element port : Value}
    (h : Connection.endFaults side element port = []) :
    ∃ e p, element.name? = some e ∧ port.name? = some p := by
  simp only [Connection.endFaults, List.append_eq_nil_iff, faultUnless_eq_nil_iff] at h
  obtain ⟨e, he⟩ := Option.isSome_iff_exists.mp h.1
  obtain ⟨p, hp⟩ := Option.isSome_iff_exists.mp h.2
  exact ⟨e, p, he, hp⟩

theorem Connection.ofValues_ne_nil (s sp t tp : Value) : ofValues s sp t tp ≠ .error [] := by
  intro h
  unfold ofValues at h
  split at h
  · cases h
  · rename_i unnamed
    obtain ⟨source, target⟩ := List.append_eq_nil_iff.mp (Except.error.inj h)
    obtain ⟨e, p, he, hp⟩ := named_of_endFaults source
    obtain ⟨e', p', he', hp'⟩ := named_of_endFaults target
    exact unnamed e p e' p' he hp he' hp'

theorem Connection.ofValues_ok_iff (s sp t tp : Value) (c : Connection) :
    ofValues s sp t tp = .ok c ↔ [s, sp, t, tp] = c.parts.map .text ∧ c.Valid := by
  constructor
  · intro h
    unfold ofValues at h
    split at h
    · rename_i s' sp' t' tp' hs hsp ht htp
      obtain rfl := Except.ok.inj h
      obtain ⟨rfl, named⟩ := Value.name?_eq_some hs
      obtain ⟨rfl, namedPort⟩ := Value.name?_eq_some hsp
      obtain ⟨rfl, named'⟩ := Value.name?_eq_some ht
      obtain ⟨rfl, namedPort'⟩ := Value.name?_eq_some htp
      refine ⟨rfl, ?_⟩
      simp [Valid, parts, named, namedPort, named', namedPort']
    · cases h
  · rintro ⟨same, valid⟩
    simp only [parts, List.map_cons, List.map_nil, List.cons.injEq, and_true] at same
    obtain ⟨rfl, rfl, rfl, rfl⟩ := same
    simp only [Valid, parts, List.mem_cons, List.not_mem_nil, or_false, forall_eq_or_imp,
      forall_eq] at valid
    obtain ⟨hs, hsp, ht, htp⟩ := valid
    simp [ofValues, Value.name?_text_of_isName, hs, hsp, ht, htp]

namespace Network

theorem make_ok_iff (id : Value) (es : List Element) (cs : List Connection) (n : Network) :
    make id es cs = .ok n ↔ id = .text n.id ∧ Text.isName n.id = true ∧ es = n.elements ∧
      cs = n.connections ∧ bodyFaults n.elements n.connections = [] := by
  constructor
  · intro h
    obtain ⟨hid, rfl, rfl, body⟩ := make_eq_ok h
    obtain ⟨same, named⟩ := Value.name?_eq_some hid
    exact ⟨same, named, rfl, rfl, body⟩
  · rintro ⟨rfl, named, rfl, rfl, body⟩
    simp [make, Value.name?_text_of_isName named, body]

theorem check_ok_iff (n m : Network) :
    n.check = .ok m ↔ m = n ∧ Text.isName n.id = true ∧
      bodyFaults n.elements n.connections = [] := by
  rw [check, make_ok_iff]
  constructor
  · rintro ⟨id, named, elements, connections, body⟩
    have same : m = n := by
      cases n
      cases m
      simp_all
    subst same
    exact ⟨rfl, named, body⟩
  · rintro ⟨rfl, named, body⟩
    exact ⟨rfl, named, rfl, rfl, body⟩

end Network

end RungLogic
