import RungLogic.Proofs.Outcomes
import RungLogic.Settings

/-!
Settings that are taken and settings that are not. A value gives settings when each of its sections is a
record or empty, and each entry can be converted; then all of them come from it, and what is left out from
the defaults. If it gives none, or there is no value, the settings are the defaults and that is reported.
But an interval without end is neither taken nor replaced: it ends the loading with an error.
-/

set_option autoImplicit false
set_option relaxedAutoImplicit false

namespace RungLogic.Settings

/-- The entries of a value as a section: one that is empty, in whatever form, has none. -/
inductive IsSection : Value → Table Value → Prop
  | empty {v : Value} : v.truthy = false → IsSection v []
  | record {fields : Table Value} : fields ≠ [] → IsSection (.record fields) fields

/-- The integer that a value stands for. -/
inductive Counts : Value → Int → Prop
  | off : Counts (.bool false) 0
  | on : Counts (.bool true) 1
  | whole (i : Int) : Counts (.int i) i
  | real {x : Float} {i : Int} : (Number.Form.ofReal x).truncate? = some i → Counts (.num (.real x)) i
  | text {s : String} {i : Int} : Number.readInteger? s = some i → Counts (.text s) i

/-- A value that is an infinite real. -/
def IsInfinite (v : Value) : Prop := ∃ x s, v = .num (.real x) ∧ Number.Form.ofReal x = .infinite s

/-- The settings that a value gives: every one from its entry or, where there is none, its default. -/
inductive Gives (v : Value) : Settings → Prop
  | mk {fields simulation trace : Table Value} {scan poll : Int} {definitions : List Value} :
      IsSection v fields → IsSection (Value.field "simulation" fields) simulation →
      IsSection (Value.field "trace" fields) trace →
      Counts (entryOr "scan_interval_ms" (.int 200) simulation) scan →
      Counts (entryOr "poll_interval_ms" (.int 50) simulation) poll →
      (entryOr "variables" (.list Store.standardDefinitions) simulation).parts? = some definitions →
      Gives v
        { simulation :=
            { scanInterval := .int scan
              pollInterval := .int poll
              memoize := (entryOr "memoize_stateful" (.bool false) simulation).truthy
              definitions := definitions }
          trace := ⟨(entryOr "continue_past_unknown" (.bool false) trace).truthy⟩
          logLevel := Text.upper (entryOr "log_level" (.text "WARNING") fields).plain }

/-- A value with an interval without end, the first of its intervals that is no integer. -/
inductive Endless (v : Value) : Prop
  | scan {fields simulation : Table Value} : IsSection v fields →
      IsSection (Value.field "simulation" fields) simulation →
      IsInfinite (entryOr "scan_interval_ms" (.int 200) simulation) → Endless v
  | poll {fields simulation : Table Value} {scan : Int} : IsSection v fields →
      IsSection (Value.field "simulation" fields) simulation →
      Counts (entryOr "scan_interval_ms" (.int 200) simulation) scan →
      IsInfinite (entryOr "poll_interval_ms" (.int 50) simulation) → Endless v

/-- What comes of loading settings. -/
inductive Loads (outcome : Except Error Value) : Except Error (Settings × List Notice) → Prop
  | taken {v : Value} {s : Settings} : outcome = .ok v → Gives v s → Loads outcome (.ok (s, []))
  | replaced : (∀ v, outcome = .ok v → ¬ Endless v ∧ ∀ s, ¬ Gives v s) →
      Loads outcome (.ok ({}, [.settingsUnread]))
  | endless {v : Value} : outcome = .ok v → Endless v → Loads outcome (.error .tooLarge)

variable {v : Value} {fields : Table Value}

private theorem section?_ok_iff : section? v = .ok fields ↔ IsSection v fields := by
  constructor
  · intro h
    unfold section? at h
    split at h
    · rename_i empty
      obtain rfl := Except.ok.inj h
      exact .empty (by simpa using empty)
    · rename_i some
      split at h
      · obtain rfl := Except.ok.inj h
        refine .record ?_
        rintro rfl
        exact some rfl
      · cases h
  · rintro (⟨empty⟩ | ⟨some⟩)
    · simp [section?, empty]
    · simp [section?, Value.truthy, some]

private theorem section?_ne_tooLarge (v : Value) : section? v ≠ .error .tooLarge := by
  unfold section?
  split
  · exact nofun
  · split <;> exact nofun

private theorem integer_real_ok_iff {x : Float} {i : Int} :
    integer (.num (.real x)) = .ok i ↔ (Number.Form.ofReal x).truncate? = some i := by
  rcases form : Number.Form.ofReal x with _ | negative | ⟨negative, m, e⟩
  · simp [integer, form, Number.Form.truncate?]
  · simp [integer, form, Number.Form.truncate?]
  · simp [integer, form, Number.Form.truncate?]

private theorem integer_ok_iff {i : Int} : integer v = .ok i ↔ Counts v i := by
  constructor
  · intro h
    cases v with
    | bool b =>
      obtain rfl := Except.ok.inj h
      cases b
      · exact .off
      · exact .on
    | num n =>
      cases n with
      | int i =>
        obtain rfl := Except.ok.inj h
        exact .whole i
      | real x => exact .real (integer_real_ok_iff.mp h)
    | text s =>
      rcases read : Number.readInteger? s with _ | j
      · simp [integer, read] at h
      · obtain rfl : j = i := by simpa [integer, read] using h
        exact .text read
    | null | list | record => cases h
  · rintro (_ | _ | _ | ⟨cut⟩ | ⟨read⟩)
    · rfl
    · rfl
    · rfl
    · exact integer_real_ok_iff.mpr cut
    · simp only [integer, read]

private theorem integer_tooLarge_iff : integer v = .error .tooLarge ↔ IsInfinite v := by
  constructor
  · intro h
    unfold integer at h
    split at h
    · cases h
    · cases h
    · rename_i x
      split at h
      · cases h
      · rename_i s form
        exact ⟨x, s, rfl, form⟩
      · cases h
    · split at h <;> cases h
    · cases h
  · rintro ⟨x, s, rfl, form⟩
    simp only [integer, form]

private theorem definitionsOf_ok_iff {definitions : List Value} :
    definitionsOf v = .ok definitions ↔ v.parts? = some definitions := by
  rcases parts : v.parts? with _ | items <;> simp [definitionsOf, parts]

private theorem definitionsOf_ne_tooLarge (v : Value) : definitionsOf v ≠ .error .tooLarge := by
  unfold definitionsOf
  split <;> exact nofun

private theorem truthy_field (name : String) (fields : Table Value) :
    (Value.field name fields).truthy = (entryOr name (.bool false) fields).truthy := by
  rcases entry : fields.value? name with _ | v <;> simp [Value.field, entryOr, entry, Value.truthy]

private theorem ofValue_ok_iff {s : Settings} : ofValue v = .ok s ↔ Gives v s := by
  simp only [ofValue, bind, pure, Except.pure, bind_ok_iff, section?_ok_iff, integer_ok_iff,
    definitionsOf_ok_iff, truthy_field, Except.ok.injEq]
  constructor
  · rintro ⟨fields, hfields, simulation, hsimulation, scan, hscan, poll, hpoll, definitions,
      hdefinitions, trace, htrace, rfl⟩
    exact .mk hfields hsimulation htrace hscan hpoll hdefinitions
  · rintro ⟨hfields, hsimulation, htrace, hscan, hpoll, hdefinitions⟩
    exact ⟨_, hfields, _, hsimulation, _, hscan, _, hpoll, _, hdefinitions, _, htrace, rfl⟩

private theorem ofValue_tooLarge_iff : ofValue v = .error .tooLarge ↔ Endless v := by
  simp only [ofValue, bind, pure, Except.pure, bind_error_iff, section?_ok_iff, integer_ok_iff,
    integer_tooLarge_iff, definitionsOf_ok_iff, section?_ne_tooLarge, definitionsOf_ne_tooLarge,
    reduceCtorEq, and_false, exists_false, or_false, false_or]
  constructor
  · rintro ⟨fields, hfields, simulation, hsimulation, hscan | ⟨scan, hscan, hpoll⟩⟩
    · exact .scan hfields hsimulation hscan
    · exact .poll hfields hsimulation hscan hpoll
  · rintro (⟨hfields, hsimulation, hscan⟩ | ⟨hfields, hsimulation, hscan, hpoll⟩)
    · exact ⟨_, hfields, _, hsimulation, .inl hscan⟩
    · exact ⟨_, hfields, _, hsimulation, .inr ⟨_, hscan, hpoll⟩⟩

private theorem orDefault_error {fault : Error} (h : fault ≠ .tooLarge) :
    orDefault (.error fault) = .ok ({}, [.settingsUnread]) := by
  cases fault with
  | tooLarge => exact (h rfl).elim
  | _ => rfl

private theorem loads_load {outcome : Except Error Value} (own : outcome ≠ .error .tooLarge) :
    Loads outcome (load outcome) := by
  rcases given : outcome.bind ofValue with fault | s
  · by_cases large : fault = .tooLarge
    · subst large
      obtain ⟨v, read, endless⟩ := (bind_error_iff.mp given).resolve_left own
      rw [load, given]
      exact .endless read (ofValue_tooLarge_iff.mp endless)
    · rw [load, given, orDefault_error large]
      refine .replaced fun v read => ?_
      rw [read] at given
      refine ⟨fun endless => ?_, fun s gives => ?_⟩
      · exact large (Except.error.inj (given.symm.trans (ofValue_tooLarge_iff.mpr endless)))
      · cases given.symm.trans (ofValue_ok_iff.mpr gives)
  · obtain ⟨v, read, gives⟩ := bind_ok_iff.mp given
    rw [load, given]
    exact .taken read (ofValue_ok_iff.mp gives)

theorem load_error_iff {outcome : Except Error Value} (own : outcome ≠ .error .tooLarge)
    {fault : Error} :
    load outcome = .error fault ↔ fault = .tooLarge ∧ ∃ v, outcome = .ok v ∧ Endless v := by
  constructor
  · intro failed
    have loads := loads_load own
    rw [failed] at loads
    cases loads with
    | endless read endless => exact ⟨rfl, _, read, endless⟩
  · rintro ⟨rfl, v, read, endless⟩
    rw [load, read, Except.bind, ofValue_tooLarge_iff.mpr endless]
    rfl

end RungLogic.Settings
