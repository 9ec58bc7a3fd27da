import RungLogic.Proofs.Network.Reach

/-!
The order of a trace. The walk from an entry meets what lies near before what lies far, and what earlier
entries have met leads to nothing new. So the elements of a network come by the first entry that leads to
them and, among those of one entry, by their distance from it.
-/

set_option autoImplicit false
set_option relaxedAutoImplicit false

namespace RungLogic.Network

/-- A wire that the walk follows from an element: it leaves the primary output, and the walk goes on
behind the element. -/
structure Walkable (n : Network) (o : TraceOptions) (d : Element) (c : Connection) : Prop where
  mem : c ∈ n.connections
  source : c.source = ⟨d.id, d.kind.primaryOutput⟩
  expanded : d.kind.HasForm ∨ o.pastUnknown = true

/-- `Leads n o s k e`: a path of `k` walkable wires leads from `s` to `e`. -/
inductive Leads (n : Network) (o : TraceOptions) (s : Element) : Nat → Element → Prop
  | here : Leads n o s 0 s
  | on {k : Nat} {d e : Element} {c : Connection} : Leads n o s k d → n.Walkable o d c →
      e ∈ n.elements → e.id = c.target.element → Leads n o s (k + 1) e

/-- The number of wires of the shortest walkable path from one element to another. -/
structure Distance (n : Network) (o : TraceOptions) (s e : Element) (k : Nat) : Prop where
  leads : n.Leads o s k e
  shortest : ∀ j, n.Leads o s j e → k ≤ j

/-- `Ranked n o e a k`: entry number `a` is the first that leads to `e`, and lies `k` wires away. -/
def Ranked (n : Network) (o : TraceOptions) (e : Element) (a k : Nat) : Prop :=
  (∃ s, n.entries[a]? = some s ∧ n.Distance o s e k) ∧
    ∀ b < a, ∀ r, n.entries[b]? = some r → ∀ j, ¬ n.Leads o r j e

variable {n : Network} {o : TraceOptions} {s e d : Element}

private theorem mem_successors_iff_walkable (coherent : n.Coherent) : e ∈ n.successors o d ↔
    ∃ c, n.Walkable o d c ∧ e ∈ n.elements ∧ e.id = c.target.element := by
  rw [mem_successors_iff coherent]
  constructor
  · rintro ⟨expanded, c, hc, source, he, target⟩
    exact ⟨c, ⟨hc, source, expanded⟩, he, target⟩
  · rintro ⟨c, ⟨hc, source, expanded⟩, he, target⟩
    exact ⟨expanded, c, hc, source, he, target⟩

private theorem Leads.next (coherent : n.Coherent) {k : Nat} (h : n.Leads o s k d)
    (he : e ∈ n.successors o d) : n.Leads o s (k + 1) e := by
  obtain ⟨c, walkable, he, target⟩ := (mem_successors_iff_walkable coherent).mp he
  exact .on h walkable he target

private theorem Leads.pos {k : Nat} (h : n.Leads o s k e) (hne : e ≠ s) : 0 < k := by
  cases h with
  | here => exact (hne rfl).elim
  | on => exact Nat.succ_pos _

private theorem Leads.trans {i j : Nat} (h : n.Leads o s i d) (h' : n.Leads o d j e) :
    n.Leads o s (i + j) e := by
  induction h' with
  | here => exact h
  | on _ walkable he target ih => exact .on ih walkable he target

/-- Elements that are met with all that follows them. -/
def Closed (n : Network) (o : TraceOptions) (met : List Element) : Prop :=
  ∀ d ∈ met, ∀ e ∈ n.successors o d, e ∈ met

private theorem Closed.leads (coherent : n.Coherent) {met : List Element} (h : n.Closed o met)
    (hs : s ∈ met) {k : Nat} (leads : n.Leads o s k e) : e ∈ met := by
  induction leads with
  | here => exact hs
  | on _ walkable he target ih =>
    exact h _ ih _ ((mem_successors_iff_walkable coherent).mpr ⟨_, walkable, he, target⟩)

private theorem Distance.unique {i j : Nat} (h : n.Distance o s e i) (h' : n.Distance o s e j) : i = j :=
  Nat.le_antisymm (h.shortest j h'.leads) (h'.shortest i h.leads)

/-- What follows an element to which a path leads, with the length of the path on. -/
def behind (n : Network) (o : TraceOptions) (x : Element × Nat) : List (Element × Nat) :=
  (n.successors o x.1).map fun e => (e, x.2 + 1)

private theorem mem_behind {x y : Element × Nat} :
    y ∈ n.behind o x ↔ y.1 ∈ n.successors o x.1 ∧ y.2 = x.2 + 1 := by
  rw [behind, List.mem_map]
  constructor
  · rintro ⟨e, he, rfl⟩
    exact ⟨he, rfl⟩
  · rintro ⟨he, hy⟩
    exact ⟨y.1, he, Prod.ext rfl hy.symm⟩

/-- What holds in the course of a walk from `s`, once `met` has been met with all that follows. Each
element that is new or waits has with it the length of a path from `s`. The lengths never fall, those
that wait differ by one at most, and those of new elements are least. -/
structure Searched (n : Network) (o : TraceOptions) (met : List Element) (s : Element)
    (new queue : List (Element × Nat)) : Prop where
  known : ∀ x ∈ new ++ queue, x.1 ∈ n.elements
  leads : ∀ x ∈ new ++ queue, n.Leads o s x.2 x.1
  sorted : (new ++ queue).Pairwise fun x y => x.2 ≤ y.2
  close : ∀ x ∈ queue, ∀ y ∈ queue, y.2 ≤ x.2 + 1
  fresh : ∀ x ∈ new, x.1 ∉ met
  shortest : ∀ x ∈ new, ∀ j, n.Leads o s j x.1 → x.2 ≤ j
  begun : s ∈ met ∨ (s, 0) ∈ new ++ queue
  onward : ∀ x ∈ new, ∀ e ∈ n.successors o x.1,
    e ∈ met ∨ ∃ j ≤ x.2 + 1, (e, j) ∈ new ++ queue

namespace Searched

variable {met : List Element} {new queue : List (Element × Nat)} {x : Element × Nat}

private theorem reach (h : Searched n o met s new queue) (coherent : n.Coherent) (closed : n.Closed o met)
    {k : Nat} (leads : n.Leads o s k e) :
    e ∈ met ∨ (∃ j ≤ k, (e, j) ∈ new) ∨ ∃ y ∈ queue, y.2 ≤ k := by
  induction leads with
  | here =>
    rcases h.begun with hs | hs
    · exact .inl hs
    · rcases List.mem_append.mp hs with hs | hs
      · exact .inr (.inl ⟨0, Nat.le_refl 0, hs⟩)
      · exact .inr (.inr ⟨_, hs, Nat.le_refl 0⟩)
  | @on k d e c _ walkable he target ih =>
    have follows := (mem_successors_iff_walkable coherent).mpr ⟨c, walkable, he, target⟩
    rcases ih with hd | ⟨j, hj, hd⟩ | ⟨y, hy, near⟩
    · exact .inl (closed d hd e follows)
    · rcases h.onward _ hd e follows with hmet | ⟨i, hi, hwaits⟩
      · exact .inl hmet
      · rcases List.mem_append.mp hwaits with hnew | hqueue
        · exact .inr (.inl ⟨i, by omega, hnew⟩)
        · exact .inr (.inr ⟨_, hqueue, by simp only; omega⟩)
    · exact .inr (.inr ⟨y, hy, by omega⟩)

private theorem head_le (h : Searched n o met s new (x :: queue)) {y : Element × Nat}
    (hy : y ∈ x :: queue) : x.2 ≤ y.2 := by
  obtain ⟨-, sorted, -⟩ := List.pairwise_append.mp h.sorted
  rcases List.mem_cons.mp hy with rfl | hy
  · exact Nat.le_refl _
  · exact (List.pairwise_cons.mp sorted).1 y hy

private theorem le_head_succ (h : Searched n o met s new (x :: queue)) {y : Element × Nat}
    (hy : y ∈ new ++ x :: queue) : y.2 ≤ x.2 + 1 := by
  rcases List.mem_append.mp hy with hy | hy
  · exact Nat.le_succ_of_le ((List.pairwise_append.mp h.sorted).2.2 y hy x List.mem_cons_self)
  · exact h.close x List.mem_cons_self y hy

private theorem shortest_head (h : Searched n o met s new (x :: queue)) (coherent : n.Coherent)
    (closed : n.Closed o met) (hmet : x.1 ∉ met) (hnew : ∀ j, (x.1, j) ∉ new) :
    ∀ j, n.Leads o s j x.1 → x.2 ≤ j := by
  intro j leads
  rcases h.reach coherent closed leads with known | ⟨i, -, known⟩ | ⟨y, hy, near⟩
  · exact (hmet known).elim
  · exact (hnew i known).elim
  · exact Nat.le_trans (h.head_le hy) near

private theorem listed (h : Searched n o met s new (x :: queue)) (old : x.1 ∈ met ∨ ∃ j, (x.1, j) ∈ new)
    {k : Nat} (he : (e, k) ∈ new ++ x :: queue) :
    e ∈ met ∨ ∃ j ≤ k, (e, j) ∈ new ++ queue := by
  rcases List.mem_append.mp he with he | he
  · exact .inr ⟨k, Nat.le_refl k, List.mem_append_left _ he⟩
  · rcases List.mem_cons.mp he with rfl | he
    · rcases old with old | ⟨j, old⟩
      · exact .inl old
      · have le : j ≤ k := (List.pairwise_append.mp h.sorted).2.2 _ old _ List.mem_cons_self
        exact .inr ⟨j, le, List.mem_append_left _ old⟩
    · exact .inr ⟨k, Nat.le_refl k, List.mem_append_right _ he⟩

private theorem pass (h : Searched n o met s new (x :: queue))
    (old : x.1 ∈ met ∨ ∃ j, (x.1, j) ∈ new) : Searched n o met s new queue := by
  have sub : (new ++ queue).Sublist (new ++ x :: queue) :=
    (List.sublist_cons_self x queue).append_left new
  refine ⟨fun y hy => h.known y (sub.subset hy), fun y hy => h.leads y (sub.subset hy),
    h.sorted.sublist sub, fun y hy z hz => ?_, h.fresh, h.shortest, ?_, fun y hy e he => ?_⟩
  · exact h.close y (List.mem_cons_of_mem x hy) z (List.mem_cons_of_mem x hz)
  · rcases h.begun with hs | hs
    · exact .inl hs
    · rcases h.listed old hs with hs | ⟨j, hj, hs⟩
      · exact .inl hs
      · obtain rfl := Nat.le_zero.mp hj
        exact .inr hs
  · rcases h.onward y hy e he with he | ⟨k, hk, he⟩
    · exact .inl he
    · rcases h.listed old he with he | ⟨j, hj, he⟩
      · exact .inl he
      · exact .inr ⟨j, Nat.le_trans hj hk, he⟩

private theorem meet (h : Searched n o met s new (x :: queue)) (coherent : n.Coherent)
    (closed : n.Closed o met) (hmet : x.1 ∉ met) (hnew : ∀ j, (x.1, j) ∉ new) :
    Searched n o met s (new ++ [x]) (queue ++ n.behind o x) := by
  have listed : (new ++ [x]) ++ (queue ++ n.behind o x) = (new ++ x :: queue) ++ n.behind o x := by
    simp only [List.append_assoc, List.cons_append, List.nil_append]
  have hx : x ∈ new ++ x :: queue := List.mem_append_right _ List.mem_cons_self
  refine ⟨?known, ?leads, ?sorted, ?close, ?fresh, ?shortest, ?begun, ?onward⟩
  case known =>
    rw [listed]
    intro y hy
    rcases List.mem_append.mp hy with hy | hy
    · exact h.known y hy
    · obtain ⟨-, -, he, -⟩ := (mem_successors_iff_walkable coherent).mp (mem_behind.mp hy).1
      exact he
  case leads =>
    rw [listed]
    intro y hy
    rcases List.mem_append.mp hy with hy | hy
    · exact h.leads y hy
    · rw [(mem_behind.mp hy).2]
      exact (h.leads x hx).next coherent (mem_behind.mp hy).1
  case sorted =>
    rw [listed]
    refine List.pairwise_append.mpr ⟨h.sorted, ?_, fun y hy z hz => ?_⟩
    · exact List.pairwise_map.mpr (List.pairwise_of_forall fun _ _ => Nat.le_refl _)
    · rw [(mem_behind.mp hz).2]
      exact h.le_head_succ hy
  case close =>
    have within : ∀ y ∈ queue ++ n.behind o x, x.2 ≤ y.2 ∧ y.2 ≤ x.2 + 1 := by
      intro y hy
      rcases List.mem_append.mp hy with hy | hy
      · have waits : y ∈ x :: queue := List.mem_cons_of_mem x hy
        exact ⟨h.head_le waits, h.le_head_succ (List.mem_append_right _ waits)⟩
      · rw [(mem_behind.mp hy).2]
        exact ⟨Nat.le_succ _, Nat.le_refl _⟩
    intro y hy z hz
    exact Nat.le_trans (within z hz).2 (Nat.succ_le_succ (within y hy).1)
  case fresh => exact List.forall_mem_append.mpr ⟨h.fresh, List.forall_mem_singleton.mpr hmet⟩
  case shortest =>
    exact List.forall_mem_append.mpr
      ⟨h.shortest, List.forall_mem_singleton.mpr (h.shortest_head coherent closed hmet hnew)⟩
  case begun =>
    rw [listed]
    exact h.begun.imp_right (List.mem_append_left _)
  case onward =>
    rw [listed]
    refine List.forall_mem_append.mpr ⟨fun y hy e he => ?_, List.forall_mem_singleton.mpr fun e he => ?_⟩
    · exact (h.onward y hy e he).imp_right fun ⟨j, hj, known⟩ =>
        ⟨j, hj, List.mem_append_left _ known⟩
    · exact .inr ⟨x.2 + 1, Nat.le_refl _, List.mem_append_right _ (mem_behind.mpr ⟨he, rfl⟩)⟩

private theorem mem_walked {e : Element} :
    e ∈ met ++ new.map Prod.fst ↔ e ∈ met ∨ ∃ j, (e, j) ∈ new := by
  simp [Prod.exists]

private theorem known_walked (h : Searched n o met s new queue) (known : ∀ e ∈ met, e ∈ n.elements) :
    ∀ e ∈ met ++ new.map Prod.fst, e ∈ n.elements := by
  intro e he
  rcases mem_walked.mp he with he | ⟨j, he⟩
  · exact known e he
  · exact h.known _ (List.mem_append_left _ he)

private theorem head_eq (h : Searched n o met s new (x :: queue)) (coherent : n.Coherent) {e : Element}
    (found : n.element? x.1.id = some e) : x.1 = e := by
  have hx := h.known x (List.mem_append_right _ List.mem_cons_self)
  rw [coherent.element?_of_mem hx] at found
  exact Option.some.inj found

/-- A walk from `s` ends when nothing waits any more. -/
private theorem walk (coherent : n.Coherent) (closed : n.Closed o met) (known : ∀ e ∈ met, e ∈ n.elements)
    {walked : List Element} {ids : List String} (h : Searched n o met s new queue)
    (hwalked : walked = met ++ new.map Prod.fst) (hids : ids = queue.map fun x => x.1.id) :
    ∃ new', n.walk o walked ids = met ++ new'.map Prod.fst ∧ Searched n o met s new' [] := by
  fun_induction Network.walk n o walked ids generalizing new queue with
  | case1 walked =>
    obtain rfl := List.map_eq_nil_iff.mp hids.symm
    exact ⟨new, hwalked, h⟩
  | case2 walked id rest missing ih =>
    obtain ⟨x, queue, rfl, rfl, rfl⟩ := List.map_eq_cons_iff.mp hids.symm
    have hx := h.known x (List.mem_append_right _ List.mem_cons_self)
    rw [coherent.element?_of_mem hx] at missing
    cases missing
  | case3 walked id rest e found old ih =>
    obtain ⟨x, queue, rfl, rfl, rfl⟩ := List.map_eq_cons_iff.mp hids.symm
    obtain rfl := h.head_eq coherent found
    rw [mem_of_isMet coherent (hwalked ▸ h.known_walked known) (mem_of_element? found), hwalked,
      mem_walked] at old
    exact ih (h.pass old) hwalked rfl
  | case4 walked id rest e found fresh _ ih =>
    obtain ⟨x, queue, rfl, rfl, rfl⟩ := List.map_eq_cons_iff.mp hids.symm
    obtain rfl := h.head_eq coherent found
    rw [mem_of_isMet coherent (hwalked ▸ h.known_walked known) (mem_of_element? found), hwalked,
      mem_walked, not_or, not_exists] at fresh
    refine ih (h.meet coherent closed fresh.1 fresh.2) ?_ ?_
    · rw [hwalked, List.map_append, List.append_assoc]
      rfl
    · rw [List.map_append, behind, List.map_map]
      rfl

end Searched

private theorem Ranked.unique {a b i j : Nat} (h : n.Ranked o e a i) (h' : n.Ranked o e b j) :
    a = b ∧ i = j := by
  obtain ⟨⟨s, hs, near⟩, first⟩ := h
  obtain ⟨⟨t, ht, near'⟩, first'⟩ := h'
  rcases Nat.lt_trichotomy a b with lt | rfl | lt
  · exact (first' a lt s hs i near.leads).elim
  · rw [hs] at ht
    obtain rfl := Option.some.inj ht
    exact ⟨rfl, near.unique near'⟩
  · exact (first b lt t ht j near'.leads).elim

private theorem Ranked.entry {a k : Nat} (h : n.Ranked o e a k) :
    ∃ s, n.entries[a]? = some s ∧ n.Ranked o s a 0 ∧ (e ≠ s → 0 < k) := by
  obtain ⟨⟨s, hs, near⟩, first⟩ := h
  refine ⟨s, hs, ⟨⟨s, hs, .here, fun _ _ => Nat.zero_le _⟩, ?_⟩, near.leads.pos⟩
  intro b hb r hr j leads
  exact first b hb r hr _ (leads.trans near.leads)

/-- The first of two elements does not rank behind the second. -/
def InOrder (n : Network) (o : TraceOptions) (d e : Element) : Prop :=
  ∀ a i b j, n.Ranked o d a i → n.Ranked o e b j → a < b ∨ a = b ∧ i ≤ j

/-- What has been met once the walks from the first `a` entries are over. -/
structure Surveyed (n : Network) (o : TraceOptions) (a : Nat) (met : List Element) : Prop where
  known : ∀ e ∈ met, e ∈ n.elements
  closed : n.Closed o met
  reached : ∀ b < a, ∀ r, n.entries[b]? = some r → r ∈ met
  ranked : ∀ e ∈ met, ∃ b < a, ∃ k, n.Ranked o e b k
  sorted : met.Pairwise (n.InOrder o)

private theorem surveyed_zero (n : Network) (o : TraceOptions) : n.Surveyed o 0 [] :=
  ⟨fun _ h => (by cases h), fun _ h => (by cases h), fun _ h => (by cases h), fun _ h => (by cases h),
    .nil⟩

private theorem searched_begin (hs : s ∈ n.elements) (met : List Element) :
    Searched n o met s [] [(s, 0)] := by
  refine ⟨?_, ?_, List.pairwise_singleton _ _, ?_, fun x hx => (by cases hx),
    fun x hx => (by cases hx), .inr List.mem_cons_self, fun x hx => (by cases hx)⟩
  · intro x hx
    rw [List.mem_singleton.mp hx]
    exact hs
  · intro x hx
    rw [List.mem_singleton.mp hx]
    exact .here
  · intro x hx y hy
    rw [List.mem_singleton.mp hx, List.mem_singleton.mp hy]
    exact Nat.zero_le _

/-- The walk from the next entry meets what no earlier entry leads to, at its distance. -/
private theorem Surveyed.walk {a : Nat} {met : List Element} (h : n.Surveyed o a met)
    (coherent : n.Coherent) (hs : n.entries[a]? = some s) :
    n.Surveyed o (a + 1) (n.walk o met [s.id]) := by
  have hmem : s ∈ n.elements := ((mem_entries_iff coherent).mp (List.mem_of_getElem? hs)).mem
  obtain ⟨new, hwalk, searched⟩ : ∃ new : List (Element × Nat),
      n.walk o met [s.id] = met ++ new.map Prod.fst ∧ Searched n o met s new [] :=
    (searched_begin hmem met).walk coherent h.closed h.known (List.append_nil met).symm rfl
  -- Earlier entries have met all that they lead to, so to what is new this entry leads first.
  have ranked : ∀ x ∈ new, n.Ranked o x.1 a x.2 := by
    intro x hx
    refine ⟨⟨s, hs, searched.leads x (List.mem_append_left _ hx), searched.shortest x hx⟩, ?_⟩
    intro b hb r hr j leads
    exact searched.fresh x hx (h.closed.leads coherent (h.reached b hb r hr) leads)
  rw [hwalk]
  refine ⟨searched.known_walked h.known, ?_, ?_, ?_, ?_⟩
  · intro d hd e he
    rcases Searched.mem_walked.mp hd with hd | ⟨k, hd⟩
    · exact List.mem_append_left _ (h.closed d hd e he)
    · rcases searched.onward _ hd e he with known | ⟨j, -, known⟩
      · exact List.mem_append_left _ known
      · rw [List.append_nil] at known
        exact Searched.mem_walked.mpr (.inr ⟨j, known⟩)
  · intro b hb r hr
    rcases Nat.lt_succ_iff_lt_or_eq.mp hb with lt | rfl
    · exact List.mem_append_left _ (h.reached b lt r hr)
    · rw [hs] at hr
      obtain rfl := Option.some.inj hr
      have begun := searched.begun
      rw [List.append_nil] at begun
      exact Searched.mem_walked.mpr (begun.imp_right fun known => ⟨0, known⟩)
  · intro e he
    rcases Searched.mem_walked.mp he with he | ⟨k, he⟩
    · obtain ⟨b, hb, k, hk⟩ := h.ranked e he
      exact ⟨b, Nat.lt_succ_of_lt hb, k, hk⟩
    · exact ⟨a, Nat.lt_succ_self a, k, ranked _ he⟩
  · refine List.pairwise_append.mpr ⟨h.sorted, List.pairwise_map.mpr ?_, ?_⟩
    · have sorted := searched.sorted
      rw [List.append_nil] at sorted
      refine sorted.imp_of_mem fun {x y} hx hy le b i c j hd he => ?_
      obtain ⟨rfl, rfl⟩ := hd.unique (ranked x hx)
      obtain ⟨rfl, rfl⟩ := he.unique (ranked y hy)
      exact .inr ⟨rfl, le⟩
    · intro d hd e he b i c j rankD rankE
      obtain ⟨y, hy, rfl⟩ := List.mem_map.mp he
      obtain ⟨b', hb', k, hk⟩ := h.ranked d hd
      obtain ⟨rfl, -⟩ := rankD.unique hk
      obtain ⟨rfl, -⟩ := rankE.unique (ranked y hy)
      exact .inl hb'

private theorem Surveyed.walks {before rest : List Element} (split : before ++ rest = n.entries)
    {met : List Element} (h : n.Surveyed o before.length met) (coherent : n.Coherent) :
    n.Surveyed o n.entries.length (rest.foldl (fun met e => n.walk o met [e.id]) met) := by
  induction rest generalizing before met with
  | nil =>
    rw [List.append_nil] at split
    exact split ▸ h
  | cons s rest ih =>
    have hs : n.entries[before.length]? = some s := by
      rw [← split, List.getElem?_append_right (Nat.le_refl _), Nat.sub_self, List.getElem?_cons_zero]
    have split' : (before ++ [s]) ++ rest = n.entries := by
      rw [← split, List.append_assoc]
      rfl
    refine ih split' ?_
    rw [List.length_append, List.length_singleton]
    exact h.walk coherent hs

private theorem surveyed_order (coherent : n.Coherent) (o : TraceOptions) :
    n.Surveyed o n.entries.length (n.order o) := by
  have split : [] ++ n.entries = n.entries := rfl
  exact Surveyed.walks split (surveyed_zero n o) coherent

private theorem mem_order_of_ranked (coherent : n.Coherent) {a k : Nat} (h : n.Ranked o e a k) :
    e ∈ n.order o := by
  obtain ⟨⟨s, hs, near⟩, -⟩ := h
  have survey := surveyed_order coherent o
  obtain ⟨lt, -⟩ := List.getElem?_eq_some_iff.mp hs
  exact survey.closed.leads coherent (survey.reached a lt s hs) near.leads

private theorem pair_sublist_or {α : Type} {l : List α} {a b : α} (ha : a ∈ l) (hb : b ∈ l) (hne : a ≠ b) :
    [a, b].Sublist l ∨ [b, a].Sublist l := by
  induction l with
  | nil => cases ha
  | cons c rest ih =>
    rcases List.mem_cons.mp ha with rfl | ha'
    · rcases List.mem_cons.mp hb with rfl | hb'
      · exact (hne rfl).elim
      · exact .inl ((List.singleton_sublist.mpr hb').cons_cons a)
    · rcases List.mem_cons.mp hb with rfl | hb'
      · exact .inr ((List.singleton_sublist.mpr ha').cons_cons b)
      · exact (ih ha' hb').imp (.cons c) (.cons c)

private theorem before_of_ranked (coherent : n.Coherent) {a i b j : Nat} (hd : n.Ranked o d a i)
    (he : n.Ranked o e b j) (lt : a < b ∨ a = b ∧ i < j) : [d, e].Sublist (n.order o) := by
  have hne : d ≠ e := by
    rintro rfl
    obtain ⟨rfl, rfl⟩ := hd.unique he
    omega
  rcases pair_sublist_or (mem_order_of_ranked coherent hd) (mem_order_of_ranked coherent he) hne
    with sub | sub
  · exact sub
  · have order := List.rel_of_pairwise_cons ((surveyed_order coherent o).sorted.sublist sub)
      List.mem_cons_self b j a i he hd
    omega

/-- What is reached and is no entry comes behind an element from which a walkable wire leads to it. -/
private theorem exists_source_before (coherent : n.Coherent) {a k : Nat} (h : n.Ranked o e a k)
    (inner : ¬ n.IsEntry e) : ∃ d c, n.Walkable o d c ∧ c.target.element = e.id ∧
      [d, e].Sublist (n.order o) := by
  obtain ⟨⟨s, hs, near⟩, first⟩ := h
  cases near.leads with
  | here => exact (inner ((mem_entries_iff coherent).mp (List.mem_of_getElem? hs))).elim
  | @on k d _ c leads walkable he target =>
    have survey := surveyed_order coherent o
    obtain ⟨lt, -⟩ := List.getElem?_eq_some_iff.mp hs
    have hd := survey.closed.leads coherent (survey.reached a lt s hs) leads
    obtain ⟨b, -, j, rank⟩ := survey.ranked d hd
    refine ⟨d, c, walkable, target.symm, before_of_ranked coherent rank ⟨⟨s, hs, near⟩, first⟩ ?_⟩
    obtain ⟨⟨r, hr, near'⟩, first'⟩ := rank
    -- An earlier entry that led to `d` would lead to `e` as well, and `s` leads to `d` itself.
    rcases Nat.lt_trichotomy b a with lt | rfl | lt
    · exact .inl lt
    · rw [hs] at hr
      obtain rfl := Option.some.inj hr
      exact .inr ⟨rfl, Nat.lt_succ_of_le (near'.shortest k leads)⟩
    · exact (first' a lt s hs k leads).elim

/-- A trace goes breadth first from entry to entry. The walk meets what some entry leads to, each
element once, and the trace gives one instruction for each of them that has a form. An element to
which an earlier entry leads first comes before an element to which a later entry does, and of two
elements with the same first entry the nearer one comes before the farther one; the entry itself comes
before all others. So each element that is no entry comes behind the source of a walkable wire that
ends at it. -/
theorem trace_breadth_first {n : Network} (valid : n.Valid) (o : TraceOptions) :
    ∃ es : List Element, es.map n.instruction? = (n.trace o).map some ∧ es.Sublist (n.order o) ∧
      (n.order o).Nodup ∧
      (∀ e, e ∈ n.order o ↔ ∃ a k, n.Ranked o e a k) ∧
      (∀ e, e ∈ es ↔ e ∈ n.order o ∧ e.kind.HasForm) ∧
      (∀ d ∈ es, ∀ e ∈ es, ∀ a i b j, n.Ranked o d a i → n.Ranked o e b j →
        a < b ∨ a = b ∧ i < j → [d, e].Sublist es) ∧
      (∀ e a k, n.Ranked o e a k → ∃ s, n.entries[a]? = some s ∧ n.Ranked o s a 0 ∧
        (e ≠ s → [s, e].Sublist (n.order o) ∧ (s ∈ es → e ∈ es → [s, e].Sublist es))) ∧
      ∀ e ∈ es, ¬ n.IsEntry e → ∃ d c, n.Walkable o d c ∧ c.target.element = e.id ∧
        [d, e].Sublist (n.order o) := by
  have coherent := valid.coherent
  have survey := surveyed_order coherent o
  have ranked : ∀ e ∈ n.order o, ∃ a k, n.Ranked o e a k := by
    intro e he
    obtain ⟨a, -, k, rank⟩ := survey.ranked e he
    exact ⟨a, k, rank⟩
  let form (e : Element) : Bool := (n.instruction? e).isSome
  have before {d e : Element} (sub : [d, e].Sublist (n.order o)) (hd : d ∈ (n.order o).filter form)
      (he : e ∈ (n.order o).filter form) : [d, e].Sublist ((n.order o).filter form) := by
    have kept := sub.filter form
    rwa [List.filter_cons_of_pos (List.mem_filter.mp hd).2,
      List.filter_cons_of_pos (List.mem_filter.mp he).2] at kept
  refine ⟨(n.order o).filter form, ?_, List.filter_sublist, (order_spec coherent o).1.of_map, ?_, ?_,
    ?_, ?_, ?_⟩
  · rw [trace, List.map_filterMap_some_eq_filter_map_isSome, List.filter_map]
    rfl
  · intro e
    refine ⟨ranked e, ?_⟩
    rintro ⟨a, k, rank⟩
    exact mem_order_of_ranked coherent rank
  · intro e
    rw [List.mem_filter, isSome_instruction?, Kind.HasForm]
  · intro d hd e he a i b j rankD rankE lt
    exact before (before_of_ranked coherent rankD rankE lt) hd he
  · intro e a k rank
    obtain ⟨s, hs, start, positive⟩ := rank.entry
    refine ⟨s, hs, start, fun hne => ?_⟩
    have sub := before_of_ranked coherent start rank (.inr ⟨rfl, positive hne⟩)
    exact ⟨sub, before sub⟩
  · intro e he
    obtain ⟨a, k, rank⟩ := ranked e (List.mem_filter.mp he).1
    exact exists_source_before coherent rank

/-- Two switches: the left one leads to a lamp through a negation, the right one to the same lamp and to
a sign. -/
def sharedLamp : Network where
  id := "n"
  elements :=
    [⟨"left", .contact, {}, [("variable", .text "X1")]⟩,
      ⟨"right", .contact, {}, [("variable", .text "X2")]⟩,
      ⟨"sign", .coil, {}, [("variable", .text "SIGN")]⟩,
      ⟨"lamp", .coil, {}, [("variable", .text "LAMP")]⟩,
      ⟨"turn", .not, {}, []⟩]
  connections :=
    [⟨⟨"right", "out"⟩, ⟨"sign", "in"⟩⟩, ⟨⟨"right", "out"⟩, ⟨"lamp", "in"⟩⟩,
      ⟨⟨"left", "out"⟩, ⟨"turn", "in"⟩⟩, ⟨⟨"turn", "out"⟩, ⟨"lamp", "in"⟩⟩]

private theorem valid_sharedLamp : sharedLamp.Valid := by decide

private theorem leads_left {k : Nat} {e : Element}
    (h : sharedLamp.Leads {} ⟨"left", .contact, {}, [("variable", .text "X1")]⟩ k e) :
    e.id = "left" ∨ e.id = "turn" ∧ 1 ≤ k ∨ e.id = "lamp" ∧ 2 ≤ k := by
  induction h with
  | here => exact .inl rfl
  | @on k d e c leads walkable he target ih =>
    have hc := walkable.mem
    have source : c.source.element = d.id := congrArg PortEnd.element walkable.source
    simp only [sharedLamp, List.mem_cons, List.not_mem_nil, or_false] at hc
    rcases hc with rfl | rfl | rfl | rfl
    · rw [← source] at ih
      exact absurd ih (by simp)
    · rw [← source] at ih
      exact absurd ih (by simp)
    · exact .inr (.inl ⟨target, Nat.le_add_left 1 k⟩)
    · rw [← source] at ih
      have far : 1 ≤ k := by simpa using ih
      exact .inr (.inr ⟨target, Nat.succ_le_succ far⟩)

private theorem ranked_lamp :
    sharedLamp.Ranked {} ⟨"lamp", .coil, {}, [("variable", .text "LAMP")]⟩ 0 2 := by
  refine ⟨⟨_, rfl, ?_, fun j leads => ?_⟩, fun b hb => (Nat.not_lt_zero b hb).elim⟩
  · have form : Kind.HasForm .contact ∧ Kind.HasForm .not := by simp [Kind.HasForm]
    have mem : (⟨"turn", .not, {}, []⟩ : Element) ∈ sharedLamp.elements ∧
        ⟨"lamp", .coil, {}, [("variable", .text "LAMP")]⟩ ∈ sharedLamp.elements := by
      simp [sharedLamp]
    have turn : Walkable sharedLamp {} ⟨"left", .contact, {}, [("variable", .text "X1")]⟩
        ⟨⟨"left", "out"⟩, ⟨"turn", "in"⟩⟩ := ⟨by decide, rfl, .inl form.1⟩
    have lamp : Walkable sharedLamp {} ⟨"turn", .not, {}, []⟩ ⟨⟨"turn", "out"⟩, ⟨"lamp", "in"⟩⟩ :=
      ⟨by decide, rfl, .inl form.2⟩
    exact .on (.on .here turn mem.1 rfl) lamp mem.2 rfl
  · simpa using leads_left leads

private theorem ranked_sign :
    sharedLamp.Ranked {} ⟨"sign", .coil, {}, [("variable", .text "SIGN")]⟩ 1 1 := by
  refine ⟨⟨_, rfl, ?_, fun j leads => ?_⟩, fun b hb r hr j leads => ?_⟩
  · have form : Kind.HasForm .contact := by simp [Kind.HasForm]
    have mem : ⟨"sign", .coil, {}, [("variable", .text "SIGN")]⟩ ∈ sharedLamp.elements := by
      simp [sharedLamp]
    have sign : Walkable sharedLamp {} ⟨"right", .contact, {}, [("variable", .text "X2")]⟩
        ⟨⟨"right", "out"⟩, ⟨"sign", "in"⟩⟩ := ⟨by decide, rfl, .inl form⟩
    exact .on .here sign mem rfl
  · exact leads.pos (by simp)
  · obtain rfl := Nat.lt_one_iff.mp hb
    obtain rfl := Option.some.inj hr
    simpa using leads_left leads

/-- The lamp comes before the sign: the left switch leads to it, though with more wires than the right
one does. -/
theorem lamp_before_sign :
    sharedLamp.Valid ∧ ∃ es : List Element,
      es.map sharedLamp.instruction? = (sharedLamp.trace {}).map some ∧
      [⟨"lamp", .coil, {}, [("variable", .text "LAMP")]⟩,
        ⟨"sign", .coil, {}, [("variable", .text "SIGN")]⟩].Sublist es := by
  refine ⟨valid_sharedLamp, ?_⟩
  obtain ⟨es, traced, -, -, reached, formed, order, -⟩ := trace_breadth_first valid_sharedLamp {}
  have form : Kind.HasForm .coil := by simp [Kind.HasForm]
  have lamp := (formed _).mpr ⟨(reached _).mpr ⟨0, 2, ranked_lamp⟩, form⟩
  have sign := (formed _).mpr ⟨(reached _).mpr ⟨1, 1, ranked_sign⟩, form⟩
  exact ⟨es, traced, order _ lamp _ sign 0 2 1 1 ranked_lamp ranked_sign (.inl Nat.zero_lt_one)⟩

end RungLogic.Network
