/-
ProxyPlan.Proofs.Growth — graphs that grow by nodes and edges at the end.

A graph that is taken over from a document grows entry by entry. What is known
about its nodes and edges stays true of them: identities stand for the nodes
they stood for (`node?_grow`), and the links of a node change only if an edge
that leaves it is added (`outgoing_grow`).

The rules of a graph come in the order in which its routing nodes are entered,
and last those that are not. In whatever order edges stand, that is some order
of the routing nodes (`routingOrder_perm`), and if they are entered in their
own order, or not at all, it is theirs (`routingOrder_eq`).
-/
import ProxyPlan.Compile.Routing
import ProxyPlan.Proofs.Graph

namespace ProxyPlan

/-! ## Growth -/

/-- The graph with further nodes and edges. -/
def Graph.grow (g : Graph) (nodes : List Node) (edges : List Edge) : Graph :=
  ⟨g.nodes ++ nodes, g.edges ++ edges⟩

namespace Graph

variable {g : Graph} {ns : List Node} {es : List Edge} {id : String}

theorem node?_grow (h : id ∈ g.ids) : (g.grow ns es).node? id = g.node? id := by
  obtain ⟨n, hn⟩ := Option.isSome_iff_exists.mp (isSome_node?.mpr h)
  have hfound : g.nodes.find? (fun n => n.id == id) = some n := hn
  rw [hn, node?, grow, List.find?_append, hfound, Option.some_or]

theorem kind?_grow (h : id ∈ g.ids) : (g.grow ns es).kind? id = g.kind? id := by
  rw [kind?, node?_grow h, kind?]

theorem ids_grow (h : id ∈ g.ids) : id ∈ (g.grow ns es).ids := by
  rw [← isSome_node?, node?_grow h, isSome_node?]
  exact h

theorem isLink_grow {e : Edge} (h : g.isLink e = true) : (g.grow ns es).isLink e = true := by
  obtain ⟨hs, ht⟩ := isLink_iff.mp h
  exact isLink_iff.mpr ⟨ids_grow hs, ids_grow ht⟩

/-- Edges that leave other nodes do not change the links of a node. -/
theorem outgoing_grow (hlink : ∀ e ∈ g.edges, g.isLink e = true) (h : ∀ e ∈ es, e.source ≠ id) :
    (g.grow ns es).outgoing id = g.outgoing id := by
  have hold : g.edges.filter (fun e => e.source == id && (g.grow ns es).isLink e) =
      g.edges.filter fun e => e.source == id && g.isLink e := by
    refine List.filter_congr fun e he => ?_
    rw [hlink e he, isLink_grow (hlink e he)]
  have hnew : es.filter (fun e => e.source == id && (g.grow ns es).isLink e) = [] := by
    refine List.filter_eq_nil_iff.mpr fun e he => ?_
    simp [h e he]
  have hall : (g.grow ns es).linksThat (fun e => e.source == id) =
      g.linksThat fun e => e.source == id := by
    show (g.edges ++ es).filter _ = _
    rw [List.filter_append, hold, hnew, List.append_nil]
    rfl
  rw [outgoing, hall, outgoing]

end Graph

namespace Compile

variable {g : Graph} {ns : List Node} {es : List Edge} {id : String}

theorem targetsOf_grow (hlink : ∀ e ∈ g.edges, g.isLink e = true) (h : ∀ e ∈ es, e.source ≠ id) :
    targetsOf (g.grow ns es) id = targetsOf g id := by
  rw [targetsOf, Graph.outgoing_grow hlink h, targetsOf]
  refine List.filterMap_congr fun e he => ?_
  obtain ⟨-, -, hl⟩ := Graph.mem_outgoing.mp he
  rw [Graph.target?, Graph.node?_grow (Graph.isLink_iff.mp hl).2, Graph.target?]

theorem routingOf?_eq (hids : (g.nodes.map Placed.id).Nodup) (id : String) :
    routingOf? g id = (g.node? id).bind Node.routing? := by
  rw [routingOf?, Graph.filter_id hids]
  cases g.node? id with
  | none => rfl
  | some n => cases hr : Node.routing? n <;> simp [hr]

/-! ## Rules by routing node -/

/-- The rules of the routing node of an identity. -/
def rulesOf (g : Graph) (id : String) : List Document.Rule :=
  match routingOf? g id with
  | some c => (targetsOf g id).map (rule c.predicates)
  | none => []

/-- The identities of the routing nodes, in the order of the nodes. -/
def routingIds (g : Graph) : List String :=
  (g.nodes.filter fun n => (Node.routing? n).isSome).map Placed.id

/-- The edges from inbounds to routing nodes. -/
def entries (g : Graph) : List Edge := g.edges.filter (isEntry g)

theorem routingRules_eq (g : Graph) : routingRules g = (routingOrder g).flatMap (rulesOf g) := rfl

/-- The rules of an inbound that leads straight to targets. -/
def directRulesOf (g : Graph) (n : Node) : List Document.Rule :=
  match Node.inbound? n with
  | some c => (targetsOf g n.id).map (rule (.ofInbound c.tag))
  | none => []

theorem directRules_eq (g : Graph) : directRules g = g.nodes.flatMap (directRulesOf g) := rfl

theorem mem_routingIds : id ∈ routingIds g ↔ ∃ n ∈ g.nodes, n.kind = .routing ∧ n.id = id := by
  simp only [routingIds, List.mem_map, List.mem_filter, Option.isSome_iff_exists]
  constructor
  · rintro ⟨n, ⟨hn, c, hc⟩, hid⟩
    exact ⟨n, hn, Node.kind_of_routing? hc, hid⟩
  · rintro ⟨n, hn, hk, hid⟩
    exact ⟨n, ⟨hn, Node.exists_routing? hk⟩, hid⟩

theorem mem_entered : id ∈ entered g ↔ ∃ e ∈ entries g, e.target = id := by
  simp [entered, entries]

theorem routingIds_of_entered (h : id ∈ entered g) : id ∈ routingIds g := by
  obtain ⟨e, he, rfl⟩ := mem_entered.mp h
  have hentry := (List.mem_filter.mp he).2
  simp only [isEntry, Bool.and_eq_true, decide_eq_true_eq] at hentry
  obtain ⟨n, hn, hk⟩ := Graph.kind?_eq_some.mp hentry.2
  exact mem_routingIds.mpr ⟨n, Graph.node?_mem hn, hk, Graph.node?_id hn⟩

theorem routingIds_nodup (hids : (g.nodes.map Placed.id).Nodup) : (routingIds g).Nodup :=
  (List.filter_sublist.map Placed.id).nodup hids

/-- Rules come in some order of the routing nodes. -/
theorem routingOrder_perm (hids : (g.nodes.map Placed.id).Nodup) :
    (routingOrder g).Perm (routingIds g) := by
  have hnodup : (routingOrder g).Nodup := by
    refine List.nodup_append'.mpr ⟨Order.distinct_nodup _, Order.firsts_nodup _ _, ?_⟩
    intro id hin hout
    exact (Order.mem_firsts.mp hout).2 hin
  refine (List.perm_ext_iff_of_nodup hnodup (routingIds_nodup hids)).mpr fun id => ?_
  rw [routingOrder, List.mem_append, Order.mem_firsts]
  constructor
  · rintro (h | ⟨h, -⟩)
    · exact routingIds_of_entered h
    · exact h
  · intro h
    by_cases hin : id ∈ entered g
    · exact .inl hin
    · exact .inr ⟨h, hin⟩

/-- Rules come in the order of the routing nodes if these are entered in it, or
not at all. -/
theorem routingOrder_eq (hids : (g.nodes.map Placed.id).Nodup)
    (h : entered g = routingIds g ∨ entered g = []) : routingOrder g = routingIds g := by
  show entered g ++ Order.firsts (entered g) (routingIds g) = _
  rcases h with h | h <;> rw [h]
  · rw [Order.firsts_eq_nil fun _ hx => hx, List.append_nil]
  · rw [List.nil_append]
    exact Order.distinct_eq_self (routingIds_nodup hids)

theorem isEntry_grow {e : Edge} (h : g.isLink e = true) :
    isEntry (g.grow ns es) e = isEntry g e := by
  obtain ⟨hs, ht⟩ := Graph.isLink_iff.mp h
  rw [isEntry, Graph.kind?_grow hs, Graph.kind?_grow ht, isEntry]

theorem entries_grow (hlink : ∀ e ∈ g.edges, g.isLink e = true) :
    entries (g.grow ns es) = entries g ++ es.filter (isEntry (g.grow ns es)) := by
  show (g.edges ++ es).filter _ = _
  rw [List.filter_append, List.filter_congr fun e he => isEntry_grow (hlink e he)]
  rfl

theorem rulesOf_grow (hids : ((g.grow ns es).nodes.map Placed.id).Nodup)
    (hlink : ∀ e ∈ g.edges, g.isLink e = true) (hid : id ∈ g.ids)
    (h : ∀ e ∈ es, e.source ≠ id) : rulesOf (g.grow ns es) id = rulesOf g id := by
  have hids' : (g.nodes.map Placed.id).Nodup := by
    rw [Graph.grow, List.map_append] at hids
    exact (List.nodup_append'.mp hids).1
  rw [rulesOf, routingOf?_eq hids, Graph.node?_grow hid, targetsOf_grow hlink h, rulesOf,
    routingOf?_eq hids']

end Compile
end ProxyPlan
