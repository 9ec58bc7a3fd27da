import RungLogic.Proofs.Document.Messages
import RungLogic.Proofs.Network.Coherence
import RungLogic.Proofs.Network.Document

/-!
What reading a network from a document reports. Every document is read as a valid network or refused with
a list of messages. Each entry of its lists is judged by itself: the messages that begin with its place
are its own, and there are some exactly when it is malformed. The network as a whole is looked at only
when there is nothing to say about its parts.
-/

set_option autoImplicit false
set_option relaxedAutoImplicit false

namespace RungLogic

open Document

namespace Element

/-- A list of records with ids, and these ids. -/
def PortList (v : Value) (ids : List Value) : Prop :=
  ∃ entries, v = .list entries ∧ List.Forall₂ (fun entry id => portOf? entry = some id) entries ids

/-- What is wrong with the entry of an element by itself: it is no record, a part is missing, its
position lacks coordinates, its ports are no records with ids, or what it asks for is no element. -/
inductive Malformed : Value → Prop
  | notARecord {v : Value} : (∀ fields, v ≠ .record fields) → Malformed v
  | missing {fields : Table Value} {key : String} :
      key ∈ ["type", "id", "position", "inputs", "outputs"] → Table.value? key fields = none →
      Malformed (.record fields)
  | position {fields : Table Value} :
      coordinates? (Value.field "position" fields) = none → Malformed (.record fields)
  | ports {fields : Table Value} (side : Side) :
      (∀ ids, ¬ PortList (Value.field side.name fields) ids) → Malformed (.record fields)
  | refused {fields : Table Value} {x y : Value} {inputs outputs : List Value} {fault : Error} :
      coordinates? (Value.field "position" fields) = some (x, y) →
      PortList (Value.field "inputs" fields) inputs →
      PortList (Value.field "outputs" fields) outputs →
      make (Value.field "id" fields) (Value.field "type" fields) (.coords x y) (.list inputs)
        (.list outputs) (nullAsEmpty (Value.field "properties" fields)) = .error fault →
      Malformed (.record fields)

private theorem readPorts_iff (side : Side) (v : Value) (ids : List Value) :
    readPorts side v = ([], ids) ↔ PortList v ids := by
  cases v with
  | list entries =>
    rw [readPorts, readPortsFrom_iff]
    constructor
    · intro each
      exact ⟨entries, rfl, each⟩
    · rintro ⟨_, same, each⟩
      cases same
      exact each
  | _ =>
    constructor
    · intro h
      cases h
    · rintro ⟨_, same, -⟩
      cases same

private theorem make_parts (id kind x y properties : Value) (inputs outputs : List Value) :
    make id kind (.coords x y) (.list inputs) (.list outputs) (nullAsEmpty properties) =
      (Draft.check ⟨id, kind, .coords x y, inputs, outputs, propertiesOf properties⟩).mapError
        (.invalid .element) := by
  cases properties <;> rfl

private theorem not_malformed_of_ofEntry {v : Value} {e : Element} (h : ofEntry v = .ok e) :
    ¬ Malformed v := by
  intro malformed
  cases v with
  | record fields =>
    have reads := reads_of_ofEntry h
    cases malformed with
    | notARecord other => exact other fields rfl
    | missing required absent =>
      have present := reads.required _ required
      rw [absent] at present
      cases present
    | position absent =>
      rw [reads.position] at absent
      cases absent
    | ports side unlisted =>
      cases side with
      | inputs => exact unlisted _ ((readPorts_iff .inputs _ _).mp reads.inputs)
      | outputs => exact unlisted _ ((readPorts_iff .outputs _ _).mp reads.outputs)
    | refused position inputs outputs failed =>
      have inputs := (readPorts_iff .inputs _ _).mpr inputs
      have outputs := (readPorts_iff .outputs _ _).mpr outputs
      rw [reads.position] at position
      rw [reads.inputs] at inputs
      rw [reads.outputs] at outputs
      cases position
      cases inputs
      cases outputs
      rw [make_parts, reads.id, reads.kind, reads.properties] at failed
      have accepted := check_draft reads.valid
      rw [draft] at accepted
      rw [accepted] at failed
      cases failed
  | _ => cases h

/-- An entry that is not read is malformed; the cases are the steps of reading it. -/
private theorem malformed_of_ofEntry {v : Value} {own : List EntryFault} (h : ofEntry v = .error own) :
    Malformed v := by
  cases v with
  | record fields =>
    simp only [ofEntry] at h
    split at h
    · split at h
      · rename_i absent
        exact .position absent
      · rename_i x y position
        rcases hinputs : readPorts .inputs (Value.field "inputs" fields) with ⟨_ | f, inputs⟩
        · rcases houtputs : readPorts .outputs (Value.field "outputs" fields) with ⟨_ | f, outputs⟩
          · have inputs := (readPorts_iff _ _ _).mp hinputs
            have outputs := (readPorts_iff _ _ _).mp houtputs
            simp only [hinputs, houtputs, List.append_nil] at h
            rcases refused : Draft.check _ with faults | e
            · exact .refused position inputs outputs (by rw [make_parts, refused]; rfl)
            · rw [refused] at h
              cases h
          · refine .ports .outputs fun ids list => ?_
            have read := houtputs.symm.trans ((readPorts_iff .outputs _ _).mpr list)
            cases read
        · refine .ports .inputs fun ids list => ?_
          have read := hinputs.symm.trans ((readPorts_iff .inputs _ _).mpr list)
          cases read
    · rename_i keys
      obtain ⟨key, hkey⟩ := List.exists_mem_of_ne_nil _ keys
      obtain ⟨required, absent⟩ := List.mem_filter.mp hkey
      rw [Table.has_eq_isSome, Bool.not_eq_true', Option.isSome_eq_false_iff,
        Option.isNone_iff_eq_none] at absent
      exact .missing required absent
  | _ => exact .notARecord fun fields same => (by cases same)

private theorem malformed_iff (v : Value) : Malformed v ↔ ∃ own, ofEntry v = .error own := by
  constructor
  · intro malformed
    rcases read : ofEntry v with own | e
    · exact ⟨own, rfl⟩
    · exact (not_malformed_of_ofEntry read malformed).elim
  · rintro ⟨own, read⟩
    exact malformed_of_ofEntry read

end Element

namespace Connection

/-- What is wrong with the entry of a wire by itself: an end is no record with an element and a port, as
when the entry is no record or lacks that end, or the ends make no wire. -/
inductive Malformed : Value → Prop
  | noEnd {v : Value} (side : End) : endOf? side v = none → Malformed v
  | refused {v source sourcePort target targetPort : Value} {fault : Error} :
      endOf? .source v = some (source, sourcePort) → endOf? .target v = some (target, targetPort) →
      make source sourcePort target targetPort = .error fault → Malformed v

private theorem malformed_iff (v : Value) : Malformed v ↔ ∃ own, ofEntry v = .error own := by
  unfold ofEntry
  rcases hsource : endOf? .source v with _ | ⟨s, sp⟩
  · exact iff_of_true (.noEnd .source hsource) ⟨_, rfl⟩
  · rcases htarget : endOf? .target v with _ | ⟨t, tp⟩
    · exact iff_of_true (.noEnd .target htarget) ⟨_, rfl⟩
    · dsimp only
      rcases made : ofValues s sp t tp with faults | c
      · exact iff_of_true (.refused hsource htarget (by rw [make, made]; rfl)) ⟨_, rfl⟩
      · refine iff_of_false (fun malformed => ?_) (by rintro ⟨own, read⟩; cases read)
        cases malformed with
        | noEnd side absent =>
          cases side with
          | source => cases hsource.symm.trans absent
          | target => cases htarget.symm.trans absent
        | refused source target failed =>
          cases hsource.symm.trans source
          cases htarget.symm.trans target
          rw [make, made] at failed
          cases failed

end Connection

namespace Network

def listed (key : String) (fields : Table Value) : List Value :=
  match Table.value? key fields with
  | some (.list entries) => entries
  | _ => []

/-- The message about what stands under the name of a list and is none. -/
def listMessages (key : String) (fields : Table Value) : List String :=
  match Table.value? key fields with
  | none | some (.list _) => []
  | some _ => ["'" ++ key ++ "' must be a list"]

/-- The messages about the id and the lists of a document. -/
def headMessages (fields : Table Value) : List String :=
  (if Table.has "id" fields then [] else ["missing 'id'"]) ++ listMessages "elements" fields ++
    listMessages "connections" fields

/-- All that there is to say about the parts of a document: first about its id and its lists, then about
the elements in their order, then about the wires in theirs. -/
def partMessages (fields : Table Value) : List String :=
  headMessages fields ++ messages Element.ofEntry .element (listed "elements" fields) ++
    messages Connection.ofEntry .connection (listed "connections" fields)

/-- The messages with which a document is refused, none if it is read. -/
def raised (d : Value) : List String :=
  match ofDocument d with
  | .ok _ => []
  | .error fault => (fault.report?.map Prod.snd).getD []

private theorem entriesOf_eq (key : String) (fields : Table Value) :
    (entriesOf key fields).1.map DocumentFault.message = listMessages key fields ∧
      (entriesOf key fields).2 = listed key fields := by
  unfold entriesOf listMessages listed
  rcases Table.value? key fields with _ | v
  · exact ⟨rfl, rfl⟩
  · cases v <;> exact ⟨rfl, rfl⟩

/-- The faults of the parts of a document, in the order in which they are told. -/
def partFaults (fields : Table Value) : List DocumentFault :=
  (if Table.has "id" fields then [] else [.idMissing]) ++ (entriesOf "elements" fields).1 ++
    (entriesOf "connections" fields).1 ++
    (readEntries Place.element Element.ofEntry (listed "elements" fields)).1 ++
    (readEntries Place.connection Connection.ofEntry (listed "connections" fields)).1

private theorem map_partFaults (fields : Table Value) :
    (partFaults fields).map DocumentFault.message = partMessages fields := by
  have idMessages : (if Table.has "id" fields then [] else [DocumentFault.idMissing]).map
      DocumentFault.message = if Table.has "id" fields then [] else ["missing 'id'"] := by
    split <;> rfl
  simp only [partFaults, partMessages, headMessages, List.map_append, idMessages,
    messages_readEntries, (entriesOf_eq _ fields).1]

private theorem partFaults_eq_nil_iff (fields : Table Value) :
    partFaults fields = [] ↔ partMessages fields = [] := by
  rw [← map_partFaults, List.map_eq_nil_iff]

private theorem ofDocument_record (fields : Table Value) :
    ofDocument (.record fields) = match partFaults fields with
      | [] => make (Value.field "id" fields)
        (readEntries Place.element Element.ofEntry (listed "elements" fields)).2
        (readEntries Place.connection Connection.ofEntry (listed "connections" fields)).2
      | faults => .error (.document .network faults) := by
  simp only [ofDocument, (entriesOf_eq _ fields).2]
  rfl

private theorem ofDocument_of_faults {fields : Table Value} (faulty : partMessages fields ≠ []) :
    ofDocument (.record fields) = .error (.document .network (partFaults fields)) := by
  rw [ofDocument_record]
  split
  · rename_i nothing
    exact (faulty ((partFaults_eq_nil_iff fields).mp nothing)).elim
  · rfl

private theorem ofDocument_of_no_fault {fields : Table Value} (faultless : partMessages fields = []) :
    ∃ es cs, List.Forall₂ (fun v e => Element.ofEntry v = .ok e) (listed "elements" fields) es ∧
      List.Forall₂ (fun v c => Connection.ofEntry v = .ok c) (listed "connections" fields) cs ∧
      ofDocument (.record fields) = make (Value.field "id" fields) es cs := by
  have nothing := (partFaults_eq_nil_iff fields).mpr faultless
  rw [ofDocument_record, nothing]
  simp only [partFaults, List.append_eq_nil_iff] at nothing
  obtain ⟨⟨-, noElement⟩, noConnection⟩ := nothing
  exact ⟨_, _, (readFrom_iff _ _ Element.ofEntry_ne_nil 0 _ _).mp (Prod.ext noElement rfl),
    (readFrom_iff _ _ Connection.ofEntry_ne_nil 0 _ _).mp (Prod.ext noConnection rfl), rfl⟩

/-- The parts of a document fit what is asked of them by themselves: there is an id, what should be a
list is one, and no entry is malformed. -/
structure PartsFit (fields : Table Value) : Prop where
  id : Table.has "id" fields = true
  lists : ∀ key ∈ ["elements", "connections"], ∀ v, Table.value? key fields = some v →
    ∃ entries, v = .list entries
  elements : ∀ v ∈ listed "elements" fields, ¬ Element.Malformed v
  connections : ∀ v ∈ listed "connections" fields, ¬ Connection.Malformed v

private theorem listMessages_eq_nil_iff (key : String) (fields : Table Value) :
    listMessages key fields = [] ↔
      ∀ v, Table.value? key fields = some v → ∃ entries, v = .list entries := by
  unfold listMessages
  rcases Table.value? key fields with _ | v
  · simp
  · cases v <;> simp

private theorem partMessages_eq_nil_iff (fields : Table Value) :
    partMessages fields = [] ↔ PartsFit fields := by
  have idMessages : (if Table.has "id" fields then [] else ["missing 'id'"]) = [] ↔
      Table.has "id" fields = true := by
    split <;> simp_all
  simp only [partMessages, headMessages, List.append_eq_nil_iff, idMessages, listMessages_eq_nil_iff,
    messages_eq_nil_iff Element.ofEntry_ne_nil, messages_eq_nil_iff Connection.ofEntry_ne_nil,
    ← Element.malformed_iff, ← Connection.malformed_iff]
  constructor
  · rintro ⟨⟨⟨⟨id, elementList⟩, connectionList⟩, elements⟩, connections⟩
    refine ⟨id, ?_, elements, connections⟩
    simpa using ⟨elementList, connectionList⟩
  · intro fit
    exact ⟨⟨⟨⟨fit.id, fit.lists _ (by decide)⟩, fit.lists _ (by decide)⟩, fit.elements⟩,
      fit.connections⟩

private theorem heads_headMessages (p : Place) (fields : Table Value) :
    ∀ m ∈ headMessages fields, p.heads m = false := by
  have missing : p.heads ("missing 'id'" ++ "") = false := Place.heads_elsewhere (by decide) p ""
  have noList (key : String) : ∀ m ∈ listMessages key fields, p.heads m = false := by
    intro m hm
    unfold listMessages at hm
    split at hm
    · cases hm
    · cases hm
    · rw [List.mem_singleton.mp hm, String.append_assoc]
      exact Place.heads_elsewhere (by decide) p _
  intro m hm
  rw [headMessages, List.mem_append, List.mem_append] at hm
  rcases hm with (hm | hm) | hm
  · split at hm
    · cases hm
    · rwa [List.mem_singleton.mp hm, ← String.append_empty (s := "missing 'id'")]
  · exact noList _ m hm
  · exact noList _ m hm

private theorem heads_endFaults (p : Place) (es : List Element) (index : Nat) (side : End) (r : PortEnd) :
    ∀ f ∈ endFaults es index side r, p.heads f.message = false := by
  have wire (rest : String) : p.heads ("connection " ++ rest) = false :=
    Place.heads_elsewhere (by decide) p rest
  intro f hf
  unfold endFaults at hf
  split at hf
  · rw [List.mem_singleton.mp hf]
    delta Fault.message
    simp only [String.append_assoc]
    exact wire _
  · rename_i e _
    have unfit : f ∈ [Fault.notAPort index side r.port e.kind e.id] := by
      cases side <;>
      · dsimp only at hf
        split at hf
        · cases hf
        · exact hf
    rw [List.mem_singleton.mp unfit]
    delta Fault.message
    simp only [String.append_assoc]
    exact wire _

private theorem heads_wireFaults (p : Place) (es : List Element) (cs : List Connection) (index : Nat) :
    ∀ f ∈ wireFaults es index cs, p.heads f.message = false := by
  induction cs generalizing index with
  | nil =>
    intro f hf
    cases hf
  | cons c rest ih =>
    intro f hf
    rw [wireFaults, List.mem_append, List.mem_append] at hf
    rcases hf with (hf | hf) | hf
    · exact heads_endFaults p es index .source c.source f hf
    · exact heads_endFaults p es index .target c.target f hf
    · exact ih (index + 1) f hf

private theorem heads_bodyFaults (p : Place) (es : List Element) (cs : List Connection) :
    ∀ f ∈ bodyFaults es cs, p.heads f.message = false := by
  intro f hf
  rw [bodyFaults, List.mem_append] at hf
  rcases hf with hf | hf
  · obtain ⟨id, -, rfl⟩ := List.mem_map.mp hf
    delta Fault.message
    simp only [String.append_assoc]
    exact Place.heads_elsewhere (by decide) p _
  · exact heads_wireFaults p es cs 0 f hf

private theorem make_error {id : Value} {es : List Element} {cs : List Connection} {fault : Error}
    (h : make id es cs = .error fault) : ∃ faults, fault = .invalid .network faults ∧
      faults ≠ [] ∧ ∀ p : Place, ∀ f ∈ faults, p.heads f.message = false := by
  unfold make at h
  split at h
  · cases h
  · rename_i faulty
    obtain rfl := Except.error.inj h
    refine ⟨_, rfl, faulty, fun p => heads_bodyFaults p es cs⟩
  · obtain rfl := Except.error.inj h
    refine ⟨_, rfl, List.cons_ne_nil _ _, fun p => ?_⟩
    rw [List.forall_mem_cons]
    refine ⟨?_, heads_bodyFaults p es cs⟩
    have unnamed : p.heads ("network id must be a non-empty string" ++ "") = false :=
      Place.heads_elsewhere (by decide) p ""
    rwa [String.append_empty] at unnamed

/-- The messages about an entry of a list, in what is raised for a document: there is one exactly when the
entry is malformed, and they are those that the entry gives alone. -/
structure Locates {α : Type} (raised : List String) (read : Value → Except (List EntryFault) α)
    (Malformed : Value → Prop) (place : Nat → Place) (entries : List Value) : Prop where
  iff_malformed {i : Nat} {v : Value} : entries[i]? = some v →
    ((∃ m ∈ raised, (place i).heads m = true) ↔ Malformed v)
  own {i : Nat} {v : Value} : entries[i]? = some v →
    raised.filter (place i).heads = messagesAt read (place i) v

private theorem filter_eq_nil_of_heads {p : Place} {ms : List String} (h : ∀ m ∈ ms, p.heads m = false) :
    ms.filter p.heads = [] :=
  List.filter_eq_nil_iff.mpr fun m hm => by rw [h m hm]; exact Bool.false_ne_true

private theorem raised_of_faults {fields : Table Value} (faulty : partMessages fields ≠ []) :
    raised (.record fields) = partMessages fields := by
  rw [raised, ofDocument_of_faults faulty, ← map_partFaults]
  rfl

private theorem filter_raised (p : Place) (fields : Table Value) :
    (raised (.record fields)).filter p.heads =
      (messages Element.ofEntry .element (listed "elements" fields)).filter p.heads ++
        (messages Connection.ofEntry .connection (listed "connections" fields)).filter p.heads := by
  by_cases faultless : partMessages fields = []
  · have nothing := faultless
    simp only [partMessages, List.append_eq_nil_iff] at nothing
    rw [nothing.1.2, nothing.2]
    obtain ⟨es, cs, -, -, made⟩ := ofDocument_of_no_fault faultless
    rw [raised, made]
    rcases hmade : make (Value.field "id" fields) es cs with fault | n
    · obtain ⟨faults, rfl, -, apart⟩ := make_error hmade
      refine filter_eq_nil_of_heads fun m hm => ?_
      obtain ⟨f, hf, rfl⟩ := List.mem_map.mp hm
      exact apart p f hf
    · rfl
  · rw [raised_of_faults faultless, partMessages, List.filter_append, List.filter_append,
      filter_eq_nil_of_heads (heads_headMessages p fields), List.nil_append]

theorem locates_of_filter {α : Type} {raised : List String}
    {read : Value → Except (List EntryFault) α} {Malformed : Value → Prop} {place : Nat → Place}
    {entries : List Value} (nonempty : ∀ v, read v ≠ .error [])
    (malformed_iff : ∀ v, Malformed v ↔ ∃ own, read v = .error own)
    (apart : ∀ i j, place i = place j ↔ i = j)
    (only : ∀ i, raised.filter (place i).heads =
      (messages read place entries).filter (place i).heads) :
    Locates raised read Malformed place entries := by
  have own {i : Nat} {v : Value} (hv : entries[i]? = some v) :
      raised.filter (place i).heads = messagesAt read (place i) v :=
    (only i).trans (filter_messages read apart hv)
  refine ⟨fun {i v} hv => ?_, own⟩
  have unsaid : (¬ ∃ m ∈ raised, (place i).heads m = true) ↔ ¬ Malformed v := by
    rw [malformed_iff, ← messagesAt_eq_nil_iff nonempty (place i) v, ← own hv,
      List.filter_eq_nil_iff]
    simp
  exact not_iff_not.mp unsaid

private theorem locates_raised (fields : Table Value) :
    Locates (raised (.record fields)) Element.ofEntry Element.Malformed .element
        (listed "elements" fields) ∧
      Locates (raised (.record fields)) Connection.ofEntry Connection.Malformed .connection
        (listed "connections" fields) := by
  constructor
  · refine locates_of_filter Element.ofEntry_ne_nil Element.malformed_iff (by simp) fun i => ?_
    rw [filter_raised, filter_messages_eq_nil Connection.ofEntry (by simp), List.append_nil]
  · refine locates_of_filter Connection.ofEntry_ne_nil Connection.malformed_iff (by simp) fun i => ?_
    rw [filter_raised, filter_messages_eq_nil Element.ofEntry (by simp), List.nil_append]

/-- A document is read as a valid network or refused with the messages about it. -/
private theorem read_or_raised (d : Value) :
    (∃ n, ofDocument d = .ok n ∧ n.Valid) ∨ ∃ fault subject, ofDocument d = .error fault ∧
      fault.report? = some (subject, raised d) ∧ raised d ≠ [] := by
  rcases read : ofDocument d with fault | n
  · right
    suffices ∃ subject messages, fault.report? = some (subject, messages) ∧ messages ≠ [] by
      obtain ⟨subject, messages, reported, nonempty⟩ := this
      have same : raised d = messages := by rw [raised, read]; simp only [reported]; rfl
      exact ⟨fault, subject, rfl, same ▸ reported, same ▸ nonempty⟩
    cases d with
    | record fields =>
      by_cases faultless : partMessages fields = []
      · obtain ⟨es, cs, -, -, made⟩ := ofDocument_of_no_fault faultless
        obtain ⟨faults, rfl, nonempty, -⟩ := make_error (made.symm.trans read)
        exact ⟨_, _, rfl, fun empty => nonempty (List.map_eq_nil_iff.mp empty)⟩
      · obtain rfl := Except.error.inj ((ofDocument_of_faults faultless).symm.trans read)
        exact ⟨_, _, rfl, (map_partFaults fields).symm ▸ faultless⟩
    | _ =>
      cases read
      exact ⟨_, _, rfl, List.cons_ne_nil _ _⟩
  · exact .inl ⟨n, rfl, (networkForm_of_ofDocument read).2⟩

private theorem exists_make_iff (id : Value) (es : List Element) (cs : List Connection) :
    (∃ n, make id es cs = .ok n) ↔
      ∃ name, id = .text name ∧ Text.isName name = true ∧ Coherent ⟨name, es, cs⟩ := by
  constructor
  · rintro ⟨n, made⟩
    obtain ⟨same, named, rfl, rfl, body⟩ := (make_ok_iff id es cs n).mp made
    exact ⟨n.id, same, named, (coherent_iff n).mpr body⟩
  · rintro ⟨name, same, named, coherent⟩
    exact ⟨⟨name, es, cs⟩, (make_ok_iff id es cs _).mpr
      ⟨same, named, rfl, rfl, (coherent_iff _).mp coherent⟩⟩

/-- Every document is read as a valid network or refused with a list of messages. The messages that begin
with the place of an entry are those that the entry gives alone, and there is one exactly when it is
malformed. All that is wrong with the parts is told in their order, and only when nothing is, the network
is looked at as a whole, and is read exactly when it has a name and is coherent. -/
theorem reading_judges_each_entry :
    (∀ d, (∃ n, ofDocument d = .ok n ∧ n.Valid) ∨ ∃ fault subject, ofDocument d = .error fault ∧
      fault.report? = some (subject, raised d) ∧ raised d ≠ []) ∧
    ∀ fields : Table Value,
      Locates (raised (.record fields)) Element.ofEntry Element.Malformed .element
        (listed "elements" fields) ∧
      Locates (raised (.record fields)) Connection.ofEntry Connection.Malformed .connection
        (listed "connections" fields) ∧
      (¬ PartsFit fields → ∃ faults,
        ofDocument (.record fields) = .error (.document .network faults) ∧
          raised (.record fields) = headMessages fields ++
            messages Element.ofEntry .element (listed "elements" fields) ++
            messages Connection.ofEntry .connection (listed "connections" fields)) ∧
      (PartsFit fields → ∃ es cs,
        List.Forall₂ (fun v e => Element.ofEntry v = .ok e) (listed "elements" fields) es ∧
          List.Forall₂ (fun v c => Connection.ofEntry v = .ok c) (listed "connections" fields) cs ∧
          ofDocument (.record fields) = make (Value.field "id" fields) es cs ∧
          ((∃ n, ofDocument (.record fields) = .ok n) ↔
            ∃ name, Value.field "id" fields = .text name ∧ Text.isName name = true ∧
              Coherent ⟨name, es, cs⟩)) := by
  refine ⟨read_or_raised, fun fields => ?_⟩
  obtain ⟨elements, connections⟩ := locates_raised fields
  refine ⟨elements, connections, fun unfit => ?_, fun fit => ?_⟩
  · have faulty : partMessages fields ≠ [] := mt (partMessages_eq_nil_iff fields).mp unfit
    refine ⟨_, ofDocument_of_faults faulty, ?_⟩
    rw [raised_of_faults faulty]
    rfl
  · obtain ⟨es, cs, hes, hcs, made⟩ :=
      ofDocument_of_no_fault ((partMessages_eq_nil_iff fields).mpr fit)
    refine ⟨es, cs, hes, hcs, made, ?_⟩
    rw [made]
    exact exists_make_iff _ es cs

/-- A bench whose second element is nothing, whose third stands nowhere and whose wire has no ends. -/
def faultyBench : Table Value :=
  [("id", .text "bench"),
    ("elements", .list
      [Element.entry ⟨"switch", .contact, ⟨.int 1, .int 2⟩, []⟩, .null,
        .record [("type", .text "coil"), ("id", .null), ("position", .record [("x", .null)]),
          ("inputs", .list []), ("outputs", .null)]]),
    ("connections", .list [.record []])]

/-- A bench without a name of which each part is as it should be. -/
def unnamedBench : Table Value :=
  [("id", .text ""),
    ("elements", .list [Element.entry ⟨"switch", .contact, ⟨.int 1, .int 2⟩, []⟩])]

theorem benches_judged :
    raised (.record faultyBench) =
      ["elements[1]: expected an object, got NoneType",
        "elements[2].position: expected an object with x and y",
        "connections[0].source: expected an object with element and port"] ∧
    (∃ m ∈ raised (.record faultyBench), (Place.element 1).heads m = true) ∧
    (¬ ∃ m ∈ raised (.record faultyBench), (Place.element 0).heads m = true) ∧
    ¬ PartsFit faultyBench ∧ (¬ ∃ n, ofDocument (.record faultyBench) = .ok n) ∧
    PartsFit unnamedBench ∧ ¬ ∃ n, ofDocument (.record unnamedBench) = .ok n := by
  obtain ⟨-, judged⟩ := reading_judges_each_entry
  obtain ⟨elements, -, refused, -⟩ := judged faultyBench
  obtain ⟨-, -, -, read⟩ := judged unnamedBench
  have nothing : Element.Malformed .null := .notARecord fun _ same => (by cases same)
  have switch : ¬ Element.Malformed (Element.entry ⟨"switch", .contact, ⟨.int 1, .int 2⟩, []⟩) :=
    Element.not_malformed_of_ofEntry rfl
  have unfit : ¬ PartsFit faultyBench := fun fit =>
    fit.elements .null (List.mem_of_getElem? (i := 1) rfl) nothing
  have fit : PartsFit unnamedBench := (partMessages_eq_nil_iff unnamedBench).mp rfl
  refine ⟨by decide +kernel, (elements.iff_malformed rfl).mpr nothing,
    mt (elements.iff_malformed rfl).mp switch, unfit, ?_, fit, ?_⟩
  · rintro ⟨n, made⟩
    obtain ⟨faults, given, -⟩ := refused unfit
    cases given.symm.trans made
  · intro made
    obtain ⟨es, cs, -, -, -, iff⟩ := read fit
    obtain ⟨name, same, named, -⟩ := iff.mp made
    obtain rfl : "" = name := Value.text.inj same
    cases named

end Network

end RungLogic
