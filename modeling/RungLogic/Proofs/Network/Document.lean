import Mathlib.Data.List.Forall2
import RungLogic.Network.Document
import RungLogic.Proofs.Network.Parts

/-!
Networks and their documents. The document of a valid network is read back as that network. A
document that is read may hold more than the format asks for and may leave out what has a default;
its normal form has neither, and is what the network that has been read is written as.

The names of a record come in any order, so a normal form gives them in the order of the format.
-/

set_option autoImplicit false
set_option relaxedAutoImplicit false

namespace RungLogic

namespace Document

variable {α : Type}

theorem readFrom_iff (place : Nat → Place) (read : Value → Except (List EntryFault) α)
    (nonempty : ∀ v, read v ≠ .error []) (index : Nat) (entries : List Value) (found : List α) :
    readFrom place read index entries = ([], found) ↔
      List.Forall₂ (fun v a => read v = .ok a) entries found := by
  induction entries generalizing index found with
  | nil =>
    rw [readFrom, List.forall₂_nil_left_iff, Prod.mk.injEq, eq_comm (a := ([] : List α))]
    simp
  | cons v rest ih =>
    rw [List.forall₂_cons_left_iff]
    cases hv : read v with
    | ok a =>
      constructor
      · intro h
        simp only [readFrom, hv, Prod.mk.injEq] at h
        obtain ⟨nothing, rfl⟩ := h
        exact ⟨a, _, rfl, (ih (index + 1) _).mp (Prod.ext nothing rfl), rfl⟩
      · rintro ⟨b, others, hb, hrest, rfl⟩
        obtain rfl := Except.ok.inj hb
        simp only [readFrom, hv, (ih (index + 1) others).mpr hrest]
    | error own =>
      constructor
      · intro h
        simp only [readFrom, hv, Prod.mk.injEq, List.append_eq_nil_iff, List.map_eq_nil_iff] at h
        exact absurd (h.1.1 ▸ hv) (nonempty v)
      · rintro ⟨b, others, hb, -⟩
        cases hb

theorem map_eq_map_of_forall₂ {β γ : Type} {f : α → γ} {g : β → γ} {as : List α}
    {bs : List β} (h : List.Forall₂ (fun a b => f a = g b) as bs) : as.map f = bs.map g := by
  rwa [← List.forall₂_eq_eq_eq, List.forall₂_map_left_iff, List.forall₂_map_right_iff]

/-- A part of a record: its name, the value that stands for it when it is missing, if any, and the
normal form of its values. -/
structure Part where
  name : String
  missing : Option Value := none
  normal : Value → Value := id

def Part.entry? (p : Part) (fields : Table Value) : Option (String × Value) :=
  match Table.value? p.name fields with
  | some v => some (p.name, p.normal v)
  | none => p.missing.map fun v => (p.name, v)

/-- A record with these parts and no others. -/
def withParts (parts : List Part) : Value → Value
  | .record fields => .record (parts.filterMap fun p => p.entry? fields)
  | v => v

def withItems (normal : Value → Value) : Value → Value
  | .list items => .list (items.map normal)
  | v => v

def nullAsEmpty : Value → Value
  | .null => .record []
  | v => v

def positionForm : Value → Value := withParts [{ name := "x" }, { name := "y" }]

def portsForm : Value → Value := withItems (withParts [{ name := "id" }])

def elementForm : Value → Value :=
  withParts
    [{ name := "type" }, { name := "id" }, { name := "position", normal := positionForm },
      { name := "inputs", normal := portsForm }, { name := "outputs", normal := portsForm },
      { name := "properties", missing := some (.record []), normal := nullAsEmpty }]

def endForm : Value → Value := withParts [{ name := "element" }, { name := "port" }]

def connectionForm : Value → Value :=
  withParts [{ name := "source", normal := endForm }, { name := "target", normal := endForm }]

/-- The normal form of the document of a network: names that the format does not have are dropped,
missing lists and missing or null properties are empty, and all else is kept. -/
def networkForm : Value → Value :=
  withParts
    [{ name := "id" },
      { name := "elements", missing := some (.list []), normal := withItems elementForm },
      { name := "connections", missing := some (.list []), normal := withItems connectionForm }]

theorem refuse_ok_iff (result : Except (List Fault) α) (a : α) :
    refuse result = .ok a ↔ result = .ok a := mapError_ok_iff result _ a

theorem refuse_ne_nil {result : Except (List Fault) α} (h : result ≠ .error []) :
    refuse result ≠ .error [] := by
  cases result with
  | ok a =>
    intro given
    cases given
  | error faults =>
    intro given
    have none : faults = [] := List.map_eq_nil_iff.mp (Except.error.inj given)
    exact h (by rw [none])

end Document

open Document

namespace Element

theorem readPortsFrom_iff (side : Side) (index : Nat) (vs ids : List Value) :
    readPortsFrom side index vs = ([], ids) ↔
      List.Forall₂ (fun v id => portOf? v = some id) vs ids := by
  induction vs generalizing index ids with
  | nil =>
    rw [readPortsFrom, List.forall₂_nil_left_iff, Prod.mk.injEq]
    simp [eq_comm]
  | cons v rest ih =>
    rw [List.forall₂_cons_left_iff]
    cases hv : portOf? v with
    | some id =>
      constructor
      · intro h
        simp only [readPortsFrom, hv, Prod.mk.injEq] at h
        obtain ⟨nothing, rfl⟩ := h
        exact ⟨id, _, rfl, (ih (index + 1) _).mp (Prod.ext nothing rfl), rfl⟩
      · rintro ⟨b, others, hb, hrest, rfl⟩
        obtain rfl := Option.some.inj hb
        simp only [readPortsFrom, hv, (ih (index + 1) others).mpr hrest]
    | none =>
      constructor
      · intro h
        simp [readPortsFrom, hv] at h
      · rintro ⟨b, others, hb, -⟩
        cases hb

private theorem readPorts_portEntries (side : Side) (ports : List String) :
    readPorts side (portEntries ports) = ([], ports.map .text) := by
  show readPortsFrom side 0 (ports.map fun p => .record [("id", .text p)]) = _
  apply (readPortsFrom_iff side 0 _ _).mpr
  rw [List.forall₂_map_left_iff, List.forall₂_map_right_iff, List.forall₂_same]
  intro p hp
  rfl

private theorem portForm_of_portOf? {v id : Value} (h : portOf? v = some id) :
    withParts [{ name := "id" }] v = .record [("id", id)] := by
  cases v with
  | record fields =>
    have found : Table.value? "id" fields = some id := h
    simp [withParts, Part.entry?, found]
  | _ => cases h

private theorem portsForm_of_readPorts {side : Side} {v : Value} {ports : List String}
    (h : readPorts side v = ([], ports.map .text)) : portsForm v = portEntries ports := by
  cases v with
  | list entries =>
    have each := (readPortsFrom_iff side 0 entries _).mp h
    rw [List.forall₂_map_right_iff] at each
    rw [portsForm, withItems, portEntries, Value.list.injEq]
    apply map_eq_map_of_forall₂
    exact each.imp fun v p hport => portForm_of_portOf? hport
  | _ => simp [readPorts] at h

private theorem positionForm_of_coordinates? {v x y : Value} (h : coordinates? v = some (x, y)) :
    positionForm v = .record [("x", x), ("y", y)] := by
  cases v with
  | record fields =>
    obtain ⟨x', hx, h⟩ := Option.bind_eq_some_iff.mp h
    obtain ⟨y', hy, h⟩ := Option.bind_eq_some_iff.mp h
    obtain ⟨rfl, rfl⟩ := Prod.mk.inj (Option.some.inj h)
    simp [positionForm, withParts, Part.entry?, hx, hy]
  | _ => cases h

private theorem nullAsEmpty_of_propertiesOf {v : Value} {t : Table Value}
    (h : propertiesOf v = some (RawProperties.ofTable t)) : nullAsEmpty v = .record t := by
  cases v with
  | null =>
    have empty : ([] : Table Value) = t := RawProperties.ofTable_inj (Option.some.inj h)
    rw [← empty]
    rfl
  | record fields =>
    have same : fields = t := RawProperties.ofTable_inj (Option.some.inj h)
    rw [same]
    rfl
  | _ => cases h

private theorem ofEntry_entry {e : Element} (h : e.Valid) : ofEntry e.entry = .ok e := by
  have accepted : refuse e.draft.check = .ok e := (refuse_ok_iff _ e).mpr (check_draft h)
  simpa [ofEntry, entry, requiredKeys, Table.has, Value.field, Table.value?, coordinates?,
    readPorts_portEntries, propertiesOf, draft] using accepted

/-- The parts of an entry that is read as that element. -/
structure Reads (fields : Table Value) (e : Element) : Prop where
  required : ∀ key ∈ requiredKeys, Table.value? key fields = some (Value.field key fields)
  id : Value.field "id" fields = .text e.id
  kind : Value.field "type" fields = .text e.kind.name
  position : coordinates? (Value.field "position" fields) =
    some (.num e.position.x, .num e.position.y)
  inputs : readPorts .inputs (Value.field "inputs" fields) = ([], e.inputs.map .text)
  outputs : readPorts .outputs (Value.field "outputs" fields) = ([], e.outputs.map .text)
  properties : propertiesOf (Value.field "properties" fields) =
    some (RawProperties.ofTable e.properties)
  valid : e.Valid

private theorem value?_of_required {fields : Table Value}
    (none : (requiredKeys.filter fun key => !Table.has key fields) = []) :
    ∀ key ∈ requiredKeys, Table.value? key fields = some (Value.field key fields) := by
  intro key hkey
  have has : Table.has key fields = true := by
    have := List.filter_eq_nil_iff.mp none key hkey
    simpa using this
  rw [Table.has_eq_isSome] at has
  obtain ⟨v, hv⟩ := Option.isSome_iff_exists.mp has
  rw [Value.field, hv]
  rfl

theorem reads_of_ofEntry {fields : Table Value} {e : Element}
    (h : ofEntry (.record fields) = .ok e) : Reads fields e := by
  simp only [ofEntry] at h
  split at h
  · rename_i required
    split at h
    · cases h
    · rename_i x y position
      split at h
      · rename_i nothing
        obtain ⟨inputsNone, outputsNone⟩ := List.append_eq_nil_iff.mp nothing
        obtain ⟨same, valid⟩ := (Draft.check_ok_iff _ e).mp ((refuse_ok_iff _ e).mp h)
        simp only [draft, Draft.mk.injEq, Placement.coords.injEq] at same
        obtain ⟨hid, hkind, ⟨rfl, rfl⟩, hinputs, houtputs, hproperties⟩ := same
        exact ⟨value?_of_required required, hid, hkind, position, Prod.ext inputsNone hinputs,
          Prod.ext outputsNone houtputs, hproperties, valid⟩
      · cases h
  · cases h

private theorem elementForm_of_ofEntry {v : Value} {e : Element} (h : ofEntry v = .ok e) :
    elementForm v = e.entry ∧ e.Valid := by
  cases v with
  | record fields =>
    have reads := reads_of_ofEntry h
    refine ⟨?_, reads.valid⟩
    have type := reads.required "type" (by decide)
    have id := reads.required "id" (by decide)
    have position := reads.required "position" (by decide)
    have inputs := reads.required "inputs" (by decide)
    have outputs := reads.required "outputs" (by decide)
    have properties : Part.entry?
        { name := "properties", missing := some (.record []), normal := nullAsEmpty } fields =
        some ("properties", .record e.properties) := by
      have given := nullAsEmpty_of_propertiesOf reads.properties
      cases found : Table.value? "properties" fields with
      | some v =>
        simp only [Value.field, found, Option.getD_some] at given
        simp [Part.entry?, found, given]
      | none =>
        simp only [Value.field, found, Option.getD_none, nullAsEmpty] at given
        simp [Part.entry?, found, given]
    simp only [elementForm, withParts, List.filterMap_cons, List.filterMap_nil, properties]
    simp only [Part.entry?, type, id, position, inputs, outputs, reads.kind, reads.id,
      positionForm_of_coordinates? reads.position, portsForm_of_readPorts reads.inputs,
      portsForm_of_readPorts reads.outputs]
    rfl
  | _ => cases h

theorem ofEntry_ne_nil (v : Value) : ofEntry v ≠ .error [] := by
  intro h
  cases v with
  | record fields =>
    simp only [ofEntry] at h
    split at h
    · split at h
      · cases h
      · split at h
        · exact refuse_ne_nil (Draft.check_ne_nil _) h
        · rename_i some
          exact some (Except.error.inj h)
    · cases h
  | _ => cases h

end Element

namespace Connection

private theorem endForm_of_endOf? {side : End} {element port : Value} {fields : Table Value}
    (h : endOf? side (.record fields) = some (element, port)) :
    ∃ inner, Table.value? side.name fields = some inner ∧
      endForm inner = .record [("element", element), ("port", port)] := by
  simp only [endOf?] at h
  split at h
  · rename_i inner hinner
    obtain ⟨element', helement, h⟩ := Option.bind_eq_some_iff.mp h
    obtain ⟨port', hport, h⟩ := Option.bind_eq_some_iff.mp h
    obtain ⟨rfl, rfl⟩ := Prod.mk.inj (Option.some.inj h)
    refine ⟨.record inner, ?_, ?_⟩
    · cases found : Table.value? side.name fields with
      | none => simp [Value.field, found] at hinner
      | some w =>
        simp only [Value.field, found, Option.getD_some] at hinner
        rw [hinner]
    · simp [endForm, withParts, Part.entry?, helement, hport]
  · cases h

private theorem ofEntry_entry {c : Connection} (h : c.Valid) : ofEntry c.entry = .ok c := by
  have made := (ofValues_ok_iff (.text c.source.element) (.text c.source.port)
    (.text c.target.element) (.text c.target.port) c).mpr ⟨rfl, h⟩
  have accepted := (refuse_ok_iff _ c).mpr made
  simpa [ofEntry, entry, endEntry, endOf?, Value.field, Table.value?, End.name] using accepted

private theorem connectionForm_of_ofEntry {v : Value} {c : Connection} (h : ofEntry v = .ok c) :
    connectionForm v = c.entry ∧ c.Valid := by
  unfold ofEntry at h
  split at h
  · cases h
  · rename_i source sourcePort hsource
    split at h
    · cases h
    · rename_i target targetPort htarget
      obtain ⟨same, valid⟩ := (ofValues_ok_iff _ _ _ _ c).mp ((refuse_ok_iff _ c).mp h)
      refine ⟨?_, valid⟩
      simp only [parts, List.map_cons, List.map_nil, List.cons.injEq, and_true] at same
      obtain ⟨rfl, rfl, rfl, rfl⟩ := same
      cases v with
      | record fields =>
        obtain ⟨s, hs, sourceForm⟩ := endForm_of_endOf? hsource
        obtain ⟨t, ht, targetForm⟩ := endForm_of_endOf? htarget
        simp only [End.name] at hs ht
        simp [connectionForm, withParts, Part.entry?, hs, ht, sourceForm, targetForm, entry,
          endEntry]
      | _ => cases hsource

theorem ofEntry_ne_nil (v : Value) : ofEntry v ≠ .error [] := by
  intro h
  unfold ofEntry at h
  split at h
  · cases h
  · split at h
    · cases h
    · exact refuse_ne_nil (ofValues_ne_nil _ _ _ _) h

end Connection

namespace Network

private theorem entriesOf_iff (key : String) (fields : Table Value) (entries : List Value) :
    entriesOf key fields = ([], entries) ↔
      Table.value? key fields = none ∧ entries = [] ∨
        Table.value? key fields = some (.list entries) := by
  unfold entriesOf
  cases found : Table.value? key fields with
  | none => simp [eq_comm]
  | some v => cases v <;> simp

private theorem listPart_of_entries {key : String} {form : Value → Value} {fields : Table Value}
    {entries found : List Value} (h : entriesOf key fields = ([], entries))
    (same : entries.map form = found) :
    Part.entry? { name := key, missing := some (.list []), normal := withItems form } fields =
      some (key, .list found) := by
  rcases (entriesOf_iff key fields entries).mp h with ⟨absent, rfl⟩ | present
  · have : found = [] := same.symm
    simp [Part.entry?, absent, this]
  · simp [Part.entry?, present, withItems, same]

theorem ofDocument_document {n : Network} (h : n.Valid) : ofDocument n.document = .ok n := by
  have elements : readEntries Place.element Element.ofEntry (n.elements.map Element.entry) =
      ([], n.elements) := by
    apply (readFrom_iff _ _ Element.ofEntry_ne_nil 0 _ _).mpr
    rw [List.forall₂_map_left_iff, List.forall₂_same]
    intro e he
    exact Element.ofEntry_entry (h.elements e he)
  have connections : readEntries Place.connection Connection.ofEntry
      (n.connections.map Connection.entry) = ([], n.connections) := by
    apply (readFrom_iff _ _ Connection.ofEntry_ne_nil 0 _ _).mpr
    rw [List.forall₂_map_left_iff, List.forall₂_same]
    intro c hc
    exact Connection.ofEntry_entry (h.connections c hc)
  have made : make (.text n.id) n.elements n.connections = .ok n :=
    (make_ok_iff _ _ _ n).mpr ⟨rfl, h.named, rfl, rfl, h.body⟩
  simp [ofDocument, document, Table.has, entriesOf, Table.value?, elements, connections,
    Value.field, made]

/-- The document that is read as a network is, in normal form, the document of that network. -/
theorem networkForm_of_ofDocument {d : Value} {n : Network} (h : ofDocument d = .ok n) :
    networkForm d = n.document ∧ n.Valid := by
  cases d with
  | record fields =>
    simp only [ofDocument] at h
    split at h
    · rename_i nothing
      simp only [List.append_eq_nil_iff] at nothing
      obtain ⟨⟨⟨⟨id, elementsNone⟩, connectionsNone⟩, elementNone⟩, connectionNone⟩ := nothing
      obtain ⟨hid, named, helements, hconnections, body⟩ := (make_ok_iff _ _ _ n).mp h
      have elements := (readFrom_iff _ _ Element.ofEntry_ne_nil 0 _ _).mp
        (Prod.ext elementNone helements)
      have connections := (readFrom_iff _ _ Connection.ofEntry_ne_nil 0 _ _).mp
        (Prod.ext connectionNone hconnections)
      obtain ⟨validElements, elementForms⟩ := (List.forall₂_and_left _ _).mp
        (elements.flip.imp fun e v h => (Element.elementForm_of_ofEntry h).symm)
      obtain ⟨validConnections, connectionForms⟩ := (List.forall₂_and_left _ _).mp
        (connections.flip.imp fun c v h => (Connection.connectionForm_of_ofEntry h).symm)
      have elementsPart := listPart_of_entries (Prod.ext elementsNone rfl)
        (map_eq_map_of_forall₂ elementForms.flip)
      have connectionsPart := listPart_of_entries (Prod.ext connectionsNone rfl)
        (map_eq_map_of_forall₂ connectionForms.flip)
      have idPart : Part.entry? { name := "id" } fields = some ("id", .text n.id) := by
        have has : Table.has "id" fields = true := by simpa using id
        rw [Table.has_eq_isSome] at has
        obtain ⟨v, hv⟩ := Option.isSome_iff_exists.mp has
        simp only [Value.field, hv, Option.getD_some] at hid
        simp [Part.entry?, hv, hid]
      refine ⟨?_, named, validElements, validConnections, body⟩
      simp [networkForm, withParts, idPart, elementsPart, connectionsPart, document]
    · cases h
  | _ => cases h

/-- The document of a valid network is read as that network, and a document that is read as some
network is the document of that network up to its normal form. -/
theorem document_round_trip :
    (∀ n : Network, n.Valid → ofDocument n.document = .ok n) ∧
      ∀ (d : Value) (n : Network), ofDocument d = .ok n → n.document = networkForm d := by
  constructor
  · intro n valid
    exact ofDocument_document valid
  · intro d n read
    exact (networkForm_of_ofDocument read).1.symm

/-- A lamp behind a switch, without a wire yet. -/
def bench : Network where
  id := "bench"
  elements := [⟨"switch", .contact, ⟨.int 1, .int 2⟩, [("variable", .text "X1"), ("wear", .null)]⟩,
    ⟨"lamp", .coil, {}, []⟩]
  connections := []

/-- A document of the bench that says more than is asked for and leaves out what has a default. -/
def benchDocument : Value :=
  .record [("author", .text "me"),
    ("elements", .list
      [.record [("id", .text "switch"), ("type", .text "contact"), ("color", .text "red"),
          ("properties", .record [("variable", .text "X1"), ("wear", .null)]),
          ("position", .record [("x", .int 1), ("y", .int 2), ("z", .int 3)]),
          ("inputs", .list [.record [("id", .text "in"), ("label", .null)]]),
          ("outputs", .list [.record [("id", .text "out")]])],
        .record [("type", .text "coil"), ("id", .text "lamp"),
          ("position", .record [("y", .int 1), ("x", .int 1)]),
          ("inputs", .list [.record [("id", .text "in")]]),
          ("outputs", .list [.record [("id", .text "out")]]),
          ("properties", .null)]]),
    ("id", .text "bench")]

theorem valid_bench : bench.Valid := by decide

theorem bench_round_trip :
    bench.Valid ∧ ofDocument bench.document = .ok bench ∧
      ofDocument benchDocument = .ok bench ∧ bench.document = networkForm benchDocument := by
  have read : ofDocument benchDocument = .ok bench := rfl
  exact ⟨valid_bench, document_round_trip.1 bench valid_bench, read,
    document_round_trip.2 _ _ read⟩

end Network

end RungLogic
