import Mathlib.Logic.Relation
import Mathlib.Data.List.Chain
import RungLogic.Proofs.Network.Coherence
import RungLogic.Scan.Machine

/-!
Read links: an element reads another one when the first wire at one of its read ports comes from
there. Evaluation follows these links, so what they reach decides whether it comes to an end; a loop
is a path of read links that returns to where it starts and meets no id twice on the way.
-/

set_option autoImplicit false
set_option relaxedAutoImplicit false

namespace RungLogic.Scan

open Relation

/-- The element of the first id reads that of the second through the first wire at one of its read
ports. -/
def Reads (n : Network) (a b : String) : Prop :=
  ∃ e port r, n.element? a = some e ∧ port ∈ readPorts e.kind ∧ feed? n a port = some r ∧
    r.element = b

/-- Whether read links lead from an id to one that lies on a cycle of read links. -/
def ReachesCycle (n : Network) (a : String) : Prop :=
  ∃ b, ReflTransGen (Reads n) a b ∧ TransGen (Reads n) b b

/-- A path of read links that ends where it starts and repeats no other id. -/
def IsLoop (n : Network) (path : List String) : Prop :=
  ∃ a between, path = a :: between ++ [a] ∧ (a :: between).Nodup ∧ path.IsChain (Reads n)

variable {n : Network}

/-- A cycle is reached exactly when one of the elements that are read reaches it. -/
theorem reachesCycle_iff {a : String} :
    ReachesCycle n a ↔ ∃ b, Reads n a b ∧ ReachesCycle n b := by
  constructor
  · rintro ⟨b, path, cycle⟩
    rcases path.cases_head with rfl | ⟨c, step, rest⟩
    · obtain ⟨c, step, rest⟩ := TransGen.head'_iff.mp cycle
      exact ⟨c, step, a, rest, cycle⟩
    · exact ⟨c, step, b, rest, cycle⟩
  · rintro ⟨b, step, c, path, cycle⟩
    exact ⟨c, .head step path, cycle⟩

private theorem transGen_of_isChain {a b : String} {between : List String}
    (h : (a :: between ++ [b]).IsChain (Reads n)) : TransGen (Reads n) a b := by
  induction between generalizing a with
  | nil => exact .single (List.isChain_pair.mp h)
  | cons c rest ih =>
    rw [List.cons_append, List.cons_append, List.isChain_cons_cons] at h
    exact .head h.1 (ih h.2)

theorem IsLoop.cycle {path : List String} {a : String} (h : IsLoop n path)
    (hlast : path.getLast? = some a) : TransGen (Reads n) a a := by
  obtain ⟨b, between, rfl, -, chain⟩ := h
  rw [List.getLast?_concat] at hlast
  cases hlast
  exact transGen_of_isChain chain

theorem isLoop_of_link {path : List String} {a top : String} (nodup : path.Nodup)
    (chain : path.IsChain (Reads n)) (hlast : path.getLast? = some top) (ha : a ∈ path)
    (link : Reads n top a) : IsLoop n (path.dropWhile (· ≠ a) ++ [a]) := by
  obtain ⟨before, after, rfl, hbefore⟩ := List.eq_append_cons_of_mem ha
  have hdrop : (before ++ a :: after).dropWhile (· ≠ a) = a :: after := by
    rw [List.dropWhile_append_of_pos]
    · simp
    · intro b hb
      simpa using fun same : b = a => hbefore (same ▸ hb)
  rw [hdrop]
  have hsuffix : (a :: after).IsChain (Reads n) := chain.right_of_append
  refine ⟨a, after, rfl, (List.nodup_append.mp nodup).2.1, hsuffix.append (.singleton a) ?_⟩
  intro b hb c hc
  have htop : b = top := by
    rw [List.getLast?_append_cons, Option.mem_def.mp hb] at hlast
    exact Option.some.inj hlast
  have hc' : c = a := by simpa using hc.symm
  rw [htop, hc']
  exact link

theorem mem_pending_fresh {e : Element} {port : String} {r : PortEnd} :
    (port, r) ∈ (Frame.fresh n e).pending ↔ port ∈ readPorts e.kind ∧ feed? n e.id port = some r := by
  simp only [Frame.fresh, List.mem_filterMap, Option.map_eq_some_iff, Prod.mk.injEq]
  constructor
  · rintro ⟨p, hp, s, hs, rfl, rfl⟩
    exact ⟨hp, hs⟩
  · rintro ⟨hp, hs⟩
    exact ⟨port, hp, r, hs, rfl, rfl⟩

theorem reads_iff (coherent : n.Coherent) {e : Element} (he : e ∈ n.elements) {b : String} :
    Reads n e.id b ↔ ∃ p ∈ (Frame.fresh n e).pending, p.2.element = b := by
  constructor
  · rintro ⟨d, port, r, hd, hport, hr, rfl⟩
    rw [coherent.element?_of_mem he] at hd
    cases hd
    exact ⟨(port, r), mem_pending_fresh.mpr ⟨hport, hr⟩, rfl⟩
  · rintro ⟨⟨port, r⟩, hp, rfl⟩
    obtain ⟨hport, hr⟩ := mem_pending_fresh.mp hp
    exact ⟨e, port, r, coherent.element?_of_mem he, hport, hr, rfl⟩

theorem mem_connections_of_feed? {id port : String} {r : PortEnd} (h : feed? n id port = some r) :
    ⟨r, ⟨id, port⟩⟩ ∈ n.connections := by
  obtain ⟨c, hc, rfl⟩ := Option.map_eq_some_iff.mp h
  have htarget : c.target.element = id ∧ c.target.port = port := by
    simpa using List.find?_some hc
  have hmem := List.mem_of_find?_eq_some hc
  obtain ⟨source, ⟨element, p⟩⟩ := c
  obtain ⟨rfl, rfl⟩ := htarget
  exact hmem

theorem exists_source (coherent : n.Coherent) {id port : String} {r : PortEnd}
    (h : feed? n id port = some r) :
    ∃ e ∈ n.elements, n.element? r.element = some e ∧ e.id = r.element ∧ r.port ∈ e.outputs := by
  obtain ⟨e, he, hid, hport⟩ := coherent.source _ (mem_connections_of_feed? h)
  have hid' : e.id = r.element := hid
  exact ⟨e, he, hid' ▸ coherent.element?_of_mem he, hid', hport⟩

/-- Where the wires that come into a part of the network come from lower ranks of that part, it
reaches no cycle. -/
theorem not_reachesCycle_of_rank (part : String → Prop) (rank : String → Nat)
    (h : ∀ c ∈ n.connections, part c.target.element →
      part c.source.element ∧ rank c.source.element < rank c.target.element)
    {a : String} (ha : part a) : ¬ ReachesCycle n a := by
  have link : ∀ {a b : String}, Reads n a b → part a → part b ∧ rank b < rank a := by
    rintro a b ⟨e, port, r, -, -, hr, rfl⟩ ha
    exact h _ (mem_connections_of_feed? hr) ha
  have down : ∀ {a b : String}, TransGen (Reads n) a b → part a → part b ∧ rank b < rank a := by
    intro a b path ha
    induction path with
    | single step => exact link step ha
    | tail _ step ih =>
      obtain ⟨hpart, hlt⟩ := link step ih.1
      exact ⟨hpart, hlt.trans ih.2⟩
  rintro ⟨b, path, cycle⟩
  have hb : part b := by
    rcases path.cases_head with rfl | ⟨c, step, rest⟩
    · exact ha
    · exact (down (TransGen.head' step rest) ha).1
  exact (down cycle hb).2.false

end RungLogic.Scan
