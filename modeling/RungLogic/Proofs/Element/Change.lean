import RungLogic.Proofs.Element.Edit
import RungLogic.Proofs.Tables

/-!
Changes of an element: of its position, or of one of its properties. A change is accepted for its own part
alone, whatever the rest of the element, and leaves its id and its kind. Changes of different parts, or of
different elements, commute up to the order of the properties; of two changes of one part the second counts.
-/

set_option autoImplicit false
set_option relaxedAutoImplicit false

namespace RungLogic

namespace Element

/-- Whether a property of that name may have that value, whatever the element. -/
def Admits (name : String) (value : Value) : Prop :=
  (name = "variable" → isReference value = true) ∧
    (name = "preset" → isQuantity value = true) ∧ (name = "operand" → isQuantity value = true)

/-- The same element, with its properties in any order. -/
structure Same (e other : Element) : Prop where
  id : other.id = e.id
  kind : other.kind = e.kind
  position : other.position = e.position
  properties : other.properties.Perm e.properties
  reads : ∀ name, other.properties.value? name = e.properties.value? name

theorem Same.refl (e : Element) : e.Same e := ⟨rfl, rfl, rfl, .refl _, fun _ => rfl⟩

private theorem propertyFaults_ofTable_eq_nil_iff (t : Table Value) :
    propertyFaults (RawProperties.ofTable t) = [] ↔
      isReference (Value.field "variable" t) = true ∧
        isQuantity (Value.field "preset" t) = true ∧
        isQuantity (Value.field "operand" t) = true := by
  have keys : (RawProperties.ofTable t).filter (fun p => p.1.text?.isNone) = [] := by
    refine List.filter_eq_nil_iff.mpr fun p hp => ?_
    obtain ⟨q, -, rfl⟩ := List.mem_map.mp hp
    exact Bool.false_ne_true
  simp only [propertyFaults, List.append_eq_nil_iff, faultUnless_eq_nil_iff,
    RawProperties.field_ofTable, keys, List.map_nil, true_and, and_assoc]

private theorem field_put (name other : String) (value : Value) (t : Table Value) :
    Value.field other (t.put name value) = if name = other then value else Value.field other t := by
  rw [Value.field, Table.value?_put]
  split
  · rfl
  · rfl

/-- A valid element stays so with a property set as far as the value may stand under that name. -/
theorem Valid.put_iff {e : Element} (h : e.Valid) (name : String) (value : Value) :
    Valid { e with properties := e.properties.put name value } ↔ Admits name value := by
  obtain ⟨id, kind, position, inputs, outputs, ps, given, faultless⟩ :=
    e.draft.faults_eq_nil_iff.mp h
  obtain rfl : RawProperties.ofTable e.properties = ps := Option.some.inj given
  obtain ⟨reference, preset, operand⟩ := (propertyFaults_ofTable_eq_nil_iff _).mp faultless
  have parts : Valid { e with properties := e.properties.put name value } ↔
      propertyFaults (RawProperties.ofTable (e.properties.put name value)) = [] := by
    refine (Draft.faults_eq_nil_iff _).trans ⟨?_, fun faultless => ?_⟩
    · rintro ⟨-, -, -, -, -, ps, given, faultless⟩
      obtain rfl := Option.some.inj given
      exact faultless
    · exact ⟨id, kind, position, inputs, outputs, _, rfl, faultless⟩
  rw [parts, propertyFaults_ofTable_eq_nil_iff, field_put, field_put, field_put, Admits]
  split <;> split <;> split <;> simp_all

theorem draftWith_text (e : Element) (name : String) (value : Value) :
    e.draftWith (.text name) value =
      ({ e with properties := e.properties.put name value } : Element).draft := by
  rw [draftWith, RawProperties.put_ofTable]
  rfl

theorem Valid.moved_iff {e : Element} (h : e.Valid) (p : Placement) :
    ({ e.draft with position := p } : Draft).faults = [] ↔ p.position?.isSome = true := by
  obtain ⟨id, kind, -, ports⟩ := e.draft.faults_eq_nil_iff.mp h
  rw [Draft.faults_eq_nil_iff]
  exact ⟨fun ⟨_, _, placed, _⟩ => placed, fun placed => ⟨id, kind, placed, ports⟩⟩

end Element

/-- A change of an element: of its position, or of one of its properties. -/
inductive Change where
  | position (p : Placement)
  | property (key value : Value)

namespace Change

def edit (id : Value) : Change → Edit
  | position p => .updatePosition id p
  | property key value => .updateProperty id key value

/-- Whether there is a position, or a property of that name may have that value. -/
def Fits : Change → Prop
  | position p => p.position?.isSome = true
  | property key value => ∃ name, key = .text name ∧ Element.Admits name value

def on : Change → Element → Element
  | position p, e => { e with position := p.position?.getD e.position }
  | property (.text name) value, e => { e with properties := e.properties.put name value }
  | property _ _, e => e

/-- Two changes of different parts of an element. -/
inductive Apart : Change → Change → Prop
  | moved (p : Placement) (key value : Value) : Apart (position p) (property key value)
  | set (key value : Value) (p : Placement) : Apart (property key value) (position p)
  | keys {key other : Value} (value value' : Value) : key ≠ other →
      Apart (property key value) (property other value')

/-- Two changes of one part of an element. -/
inductive Together : Change → Change → Prop
  | moved (p q : Placement) : Together (position p) (position q)
  | key (key value value' : Value) : Together (property key value) (property key value')

private theorem on_keeps (c : Change) (e : Element) : (c.on e).id = e.id ∧ (c.on e).kind = e.kind := by
  unfold on
  split <;> exact ⟨rfl, rfl⟩

/-- The element after a change of the element that a value names. -/
def onNamed (c : Change) (id : Value) (e : Element) : Element :=
  if id.text? = some e.id then c.on e else e

theorem onNamed_of_named {c : Change} {id : Value} {e : Element} (h : id.text? = some e.id) :
    c.onNamed id e = c.on e := if_pos h

theorem onNamed_of_not_named {c : Change} {id : Value} {e : Element} (h : id.text? ≠ some e.id) :
    c.onNamed id e = e := if_neg h

theorem id_onNamed (c : Change) (id : Value) (e : Element) : (c.onNamed id e).id = e.id := by
  unfold onNamed
  split
  · exact (c.on_keeps e).1
  · rfl

theorem onNamed_comm {c d : Change} {id id' : Value} (differ : id ≠ id') (e : Element) :
    d.onNamed id' (c.onNamed id e) = c.onNamed id (d.onNamed id' e) := by
  by_cases named : id.text? = some e.id
  · have other : id'.text? ≠ some e.id := by
      intro named'
      exact differ ((Value.eq_text_of_text? named).trans (Value.eq_text_of_text? named').symm)
    rw [onNamed_of_not_named other, onNamed_of_not_named (by rwa [id_onNamed])]
  · have away : id.text? ≠ some (d.onNamed id' e).id := by rwa [id_onNamed]
    rw [onNamed_of_not_named (c := c) named, onNamed_of_not_named (c := c) away]

private theorem Apart.same {c d : Change} (apart : c.Apart d) (e : Element) :
    (d.on (c.on e)).Same (c.on (d.on e)) := by
  cases apart with
  | moved p key value => cases key <;> exact .refl _
  | set key value p => cases key <;> exact .refl _
  | @keys key other value value' differ =>
    cases key with
    | text name =>
      cases other with
      | text name' =>
        have names : name ≠ name' := fun same => differ (congrArg Value.text same)
        refine ⟨rfl, rfl, rfl, Table.put_put_perm names.symm _ _ _, fun asked => ?_⟩
        simp only [on, Table.value?_put]
        split <;> split <;> simp_all
      | _ => exact .refl _
    | _ => exact .refl _

theorem Apart.same_onNamed {c d : Change} (apart : c.Apart d) (id id' : Value) (e : Element) :
    (d.onNamed id' (c.onNamed id e)).Same (c.onNamed id (d.onNamed id' e)) := by
  by_cases differ : id = id'
  · subst differ
    by_cases named : id.text? = some e.id
    · rw [onNamed_of_named (by rwa [id_onNamed]), onNamed_of_named named,
        onNamed_of_named (by rwa [id_onNamed]), onNamed_of_named named]
      exact apart.same e
    · rw [onNamed_of_not_named (by rwa [id_onNamed]), onNamed_of_not_named named,
        onNamed_of_not_named (by rwa [id_onNamed]), onNamed_of_not_named named]
      exact .refl e
  · rw [onNamed_comm differ]
    exact .refl _

theorem Together.on_on {c d : Change} (together : c.Together d) (fits : d.Fits) (e : Element) :
    d.on (c.on e) = d.on e := by
  cases together with
  | moved p q =>
    obtain ⟨place, found⟩ := Option.isSome_iff_exists.mp fits
    simp [on, found]
  | key key value value' =>
    obtain ⟨name, rfl, -⟩ := fits
    simp [on, Table.put_put]

end Change

end RungLogic
