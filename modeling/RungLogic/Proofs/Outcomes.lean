/-!
Outcomes of one step after another: the second step takes what the first has given, and an error of the
first is the error of both. Of the same step for each member of a list, the first error counts.
-/

set_option autoImplicit false
set_option relaxedAutoImplicit false

namespace RungLogic

variable {ε α β : Type} {x : Except ε α} {f : α → Except ε β}

theorem bind_ok_iff {b : β} : x.bind f = .ok b ↔ ∃ a, x = .ok a ∧ f a = .ok b := by
  cases x with
  | ok a => simp [Except.bind]
  | error e => simp [Except.bind]

theorem bind_error_iff {e : ε} :
    x.bind f = .error e ↔ x = .error e ∨ ∃ a, x = .ok a ∧ f a = .error e := by
  cases x with
  | ok a => simp [Except.bind]
  | error e => simp [Except.bind]

private theorem mapM_cons (a : α) (rest : List α) :
    (a :: rest).mapM f = (f a).bind fun b => (rest.mapM f).bind fun bs => .ok (b :: bs) :=
  List.mapM_cons

/-- Where a step can fail in one way only, it does not matter which member it fails for. -/
theorem mapM_error_iff_exists {l : List α} {p : α → Prop} {fault e : ε}
    (fails : ∀ a ∈ l, ∀ e, f a = .error e ↔ p a ∧ e = fault) :
    l.mapM f = .error e ↔ (∃ a ∈ l, p a) ∧ e = fault := by
  induction l with
  | nil => simp [pure, Except.pure]
  | cons a rest ih =>
    obtain ⟨first, others⟩ := List.forall_mem_cons.mp fails
    simp only [mapM_cons, bind_error_iff, reduceCtorEq, and_false, exists_false, or_false, ih others,
      List.mem_cons, or_and_right, exists_or, exists_eq_left, first]
    rcases ok : f a with other | b
    · obtain ⟨holds, rfl⟩ := (first other).mp ok
      simp [holds]
    · have fine : ¬ p a := fun holds => by cases ok.symm.trans ((first fault).mpr ⟨holds, rfl⟩)
      simp [fine]

theorem mapM_ok_of_forall {l : List α} {g : α → β} (ok : ∀ a ∈ l, f a = .ok (g a)) :
    l.mapM f = .ok (l.map g) := by
  induction l with
  | nil => rfl
  | cons a rest ih =>
    obtain ⟨first, others⟩ := List.forall_mem_cons.mp ok
    rw [mapM_cons, first, ih others]
    rfl

end RungLogic
