/-
ProxyPlan.Proofs.Priority — where edges without a priority stand.

An edge without a priority ranks as if it had a fixed one. Edges with a smaller priority of their
own come before all of them, and edges with a larger one after all of them; edges that have just
this priority are mixed with them, in the order of the list. So the edges without a priority come
last only where no priority is too large, and this is said exactly: for any list of edges
(`missingLast_byPriority`), and from there for the links of a node.

The half that needs an argument is that nothing else puts an edge without a priority too early.
It is carried by the stability of the order: of edges that may precede each other, the one that
stands first in the list comes first.
-/
import ProxyPlan.Proofs.Graph

namespace ProxyPlan

/-- The priority that an edge is given, if it is given one. -/
def Edge.ownPriority? (e : Edge) : Option UInt32 := e.data.bind EdgeData.priority

theorem Edge.priority_eq (e : Edge) : e.priority = e.ownPriority?.getD defaultPriority := rfl

theorem Edge.priority_of_none {e : Edge} (h : e.ownPriority? = none) :
    e.priority = defaultPriority := by
  rw [e.priority_eq, h, Option.getD_none]

theorem Edge.priority_of_some {e : Edge} {p : UInt32} (h : e.ownPriority? = some p) :
    e.priority = p := by
  rw [e.priority_eq, h, Option.getD_some]

namespace Graph

/-- Every edge with a priority of its own stands before every edge without one. -/
def MissingLast (edges : List Edge) : Prop :=
  edges.Pairwise fun a b => a.ownPriority? = none → b.ownPriority? = none

instance (edges : List Edge) : Decidable (MissingLast edges) :=
  inferInstanceAs (Decidable (edges.Pairwise _))

/-- Beside an edge without a priority no edge has a larger one than it is taken to have, and an
edge with just this priority stands before it in the list. -/
def RanksMissingLast (edges : List Edge) : Prop :=
  (∀ a ∈ edges, a.ownPriority? = none → ∀ b ∈ edges, b.priority ≤ defaultPriority) ∧
    edges.Pairwise fun a b => a.ownPriority? = none → b.ownPriority? ≠ some defaultPriority

/-- Edges with a smaller priority than an edge without one is taken to have stand before it, and
edges with a larger one behind it. -/
def MissingBetween (edges : List Edge) : Prop :=
  edges.Pairwise fun a b =>
    (a.ownPriority? = none → ∀ p, b.ownPriority? = some p → defaultPriority ≤ p) ∧
      (b.ownPriority? = none → ∀ p, a.ownPriority? = some p → p ≤ defaultPriority)

theorem missingBetween_byPriority (edges : List Edge) : MissingBetween (byPriority edges) := by
  refine (byPriority_sorted edges).imp fun {a b} hab => ⟨?_, ?_⟩
  · intro ha p hb
    rwa [Edge.priority_of_none ha, Edge.priority_of_some hb] at hab
  · intro hb p ha
    rwa [Edge.priority_of_none hb, Edge.priority_of_some ha] at hab

/-- Beside an edge without a priority that comes last no edge has a larger one. -/
theorem MissingLast.priority_le {edges : List Edge} (h : MissingLast (byPriority edges))
    {a b : Edge} (ha : a ∈ edges) (hnone : a.ownPriority? = none) (hb : b ∈ edges) :
    b.priority ≤ defaultPriority := by
  obtain ⟨before, after, hsplit⟩ := List.append_of_mem (mem_byPriority.mpr ha)
  have hsorted := byPriority_sorted edges
  rw [hsplit, List.pairwise_append, List.pairwise_cons] at hsorted
  rw [MissingLast, hsplit, List.pairwise_append, List.pairwise_cons] at h
  obtain hb | hb : b ∈ before ∨ b ∈ a :: after := by
    rw [← List.mem_append, ← hsplit]
    exact mem_byPriority.mpr hb
  · rw [← Edge.priority_of_none hnone]
    exact hsorted.2.2 b hb a List.mem_cons_self
  · obtain rfl | hb := List.mem_cons.mp hb
    · exact UInt32.le_of_eq (Edge.priority_of_none hnone)
    · exact UInt32.le_of_eq (Edge.priority_of_none (h.2.1.1 b hb hnone))

/-- Among edges of the rank of those without a priority, the list decides. -/
theorem MissingLast.pairwise {edges : List Edge} (h : MissingLast (byPriority edges)) :
    edges.Pairwise fun a b => a.ownPriority? = none → b.ownPriority? ≠ some defaultPriority := by
  have hrank : MissingLast (edges.filter fun e => e.priority = defaultPriority) := by
    rw [← filter_priority]
    exact h.sublist List.filter_sublist
  rw [MissingLast, List.pairwise_filter] at hrank
  refine hrank.imp fun {a b} hab hnone hsome => ?_
  have ha : a.priority = defaultPriority := Edge.priority_of_none hnone
  have hb : b.priority = defaultPriority := Edge.priority_of_some hsome
  have hb' := hab (decide_eq_true ha) (decide_eq_true hb) hnone
  rw [hb'] at hsome
  cases hsome

theorem RanksMissingLast.missingLast {edges : List Edge} (h : RanksMissingLast edges) :
    MissingLast (byPriority edges) := by
  obtain ⟨hle, hlist⟩ := h
  have hstable := Order.insertionSort_stable (r := fun a b => a.priority ≤ b.priority) hlist
  rw [← byPriority_eq] at hstable
  refine hstable.imp_of_mem fun {a b} ha hb hab hnone => ?_
  have hprecedes : b.priority ≤ a.priority := by
    rw [Edge.priority_of_none hnone]
    exact hle a (mem_byPriority.mp ha) hnone b (mem_byPriority.mp hb)
  have hfollows : a.priority ≤ b.priority := hab.1
  cases hown : b.ownPriority? with
  | none => rfl
  | some p =>
    have hp : p = defaultPriority := by
      rw [← Edge.priority_of_some hown, ← Edge.priority_of_none hnone]
      exact UInt32.le_antisymm hprecedes hfollows
    exact absurd (hp ▸ hown) (hab.2 hprecedes hnone)

theorem missingLast_byPriority (edges : List Edge) :
    MissingLast (byPriority edges) ↔ RanksMissingLast edges := by
  constructor
  · intro h
    exact ⟨fun a ha hnone b hb => h.priority_le ha hnone hb, h.pairwise⟩
  · exact RanksMissingLast.missingLast

/-- The links of a node that have a priority of their own come before those that have none just
when none of the former has a larger one than the latter are taken to have, or has the same and
stands behind one of the latter in the list. In any case smaller ones come before the latter and
larger ones behind them. -/
theorem links_missingLast_iff (g : Graph) (id : String) :
    ((MissingLast (g.outgoing id) ↔ RanksMissingLast (g.linksThat fun e => e.source == id)) ∧
      (MissingLast (g.incoming id) ↔ RanksMissingLast (g.linksThat fun e => e.target == id))) ∧
      MissingBetween (g.outgoing id) ∧ MissingBetween (g.incoming id) :=
  ⟨⟨missingLast_byPriority _, missingLast_byPriority _⟩, missingBetween_byPriority _,
    missingBetween_byPriority _⟩

/-- An inbound whose late link has a larger priority than links without one are taken to have. -/
def belated : Graph :=
  ⟨[⟨"in", .origin, .inbound ⟨"in", .socks, "", 1080, none, [], none, none⟩, none⟩,
      ⟨"direct", .origin, .terminal ⟨"direct", .freedom⟩, none⟩,
      ⟨"block", .origin, .terminal ⟨"block", .blackhole⟩, none⟩],
    [⟨"any", "in", "direct", .plain, none⟩,
      ⟨"last", "in", "block", .plain, some ⟨some 1000, none, none⟩⟩]⟩

theorem belated_missing_first :
    (belated.outgoing "in").map Edge.id = ["any", "last"] ∧
      ¬ MissingLast (belated.outgoing "in") := by
  decide

end Graph
end ProxyPlan
