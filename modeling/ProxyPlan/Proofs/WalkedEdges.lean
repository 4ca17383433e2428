/-
ProxyPlan.Proofs.WalkedEdges — the edges of a walk, and the groups they are in.

A walk follows links of the whole graph, while a document knows the edges of one
group. The two agree on what a proxy outbound does: it passes a request on over a
hop only, and hops are what joins documents. An inbound, a routing node or a
balancer follows its links wherever they lead (`decision_pass_leaves`). No check
asks whether such a link stays in its group, so a walk may take one that no
document has, and be delivered (`run_bridged`).

So of the edges of a walk those are missing from all documents that lead into
another group and are no hops, and no others; and if what inbounds, routing nodes and
balancers lead to is in their own group, none is missing (`run_edges`).
-/
import ProxyPlan.Proofs.Partition
import ProxyPlan.Proofs.Walk
import ProxyPlan.Proofs.WellLinked

namespace ProxyPlan

/-- A link into another group over which no server reaches the next. -/
def Graph.isGap (g : Graph) (e : Edge) : Bool := g.crossesGroups e && !g.isHop e

/-- No edge that leaves an inbound, a routing node or a balancer leads into another
group. -/
def Topology.RoutesWithin (t : Topology) : Prop :=
  ∀ e ∈ t.edges, t.graph.crossesGroups e = true →
    t.graph.kind? e.source ∉ [some .inbound, some .routing, some .balancer]

instance (t : Topology) : Decidable t.RoutesWithin :=
  inferInstanceAs (Decidable (∀ e ∈ t.edges, t.graph.crossesGroups e = true →
    t.graph.kind? e.source ∉ [some .inbound, some .routing, some .balancer]))

namespace Trace

variable {g : Graph} {pick : Picker} {r : Request} {calls : List Nat} {n : Node}

section

variable [Rule.Patterns]

/-- Requests are passed on by inbounds, routing nodes and balancers, and by proxy
outbounds to inbounds. -/
theorem decision_pass_leaves {calls' : List Nat} {remark : Remark} {x : Exit}
    (h : decision g pick r calls n = .pass remark x calls') :
    n.kind ∈ [.inbound, .routing, .balancer] ∨ n.kind = .proxy ∧ x.2.kind = .inbound := by
  have hpasses := decision_pass h
  cases hk : n.kind with
  | inbound | routing | balancer => simp
  | proxy => exact .inr ⟨rfl, hpasses.proxy hk⟩
  | terminal => exact absurd hk hpasses.not_terminal
  | device =>
    -- a device passes nothing on, so there is no such decision
    obtain ⟨id, position, role, server⟩ := n
    cases role <;> cases hk
    cases h

/-- Every edge of a walk is a link, and a hop unless it leaves an inbound, a routing
node or a balancer. -/
theorem of_mem_run (hids : (g.nodes.map Placed.id).Nodup) {e : Edge}
    (he : e ∈ (run g pick calls r).edges) :
    e ∈ g.edges ∧ g.isLink e = true ∧
      (g.kind? e.source ∈ [some .inbound, some .routing, some .balancer] ∨ g.isHop e = true) := by
  cases hentrance : entrance? g r with
  | none => simp [run, hentrance] at he
  | some n =>
    have hway : Way g pick r [] calls n (run g pick calls r) := run_way hentrance
    obtain ⟨k, hk⟩ := List.mem_iff_getElem?.mp he
    obtain ⟨s, s', _, _, hs, -, hpass⟩ := hway.passes hk
    obtain ⟨hmem, hsource, hlink, htarget⟩ := mem_exits.mp (decision_pass hpass).exit
    have hnode : s.node ∈ g.nodes :=
      hway.node_mem (List.mem_of_find?_eq_some hentrance) s (List.mem_of_getElem? hs)
    have hkind : g.kind? e.source = some s.node.kind :=
      Graph.kind?_eq_some.mpr ⟨s.node, by rw [hsource, Graph.node?_of_mem hids hnode], rfl⟩
    refine ⟨hmem, hlink, ?_⟩
    rcases decision_pass_leaves hpass with hk | ⟨hproxy, hinbound⟩
    · exact .inl (by simpa [hkind] using hk)
    · have hnext : g.kind? e.target = some .inbound :=
        Graph.kind?_eq_some.mpr ⟨s'.node, htarget, hinbound⟩
      exact .inr (by simp [Graph.isHop, hkind, hproxy, hnext])

/-- An edge of a walk is a hop or in some group unless it leads into another group
without being a hop; and if inbounds, routing nodes and balancers lead to nodes of their
own groups only, every edge of every walk is a hop or in some group. -/
theorem run_edges {t : Topology} (hids : (t.nodes.map Placed.id).Nodup) (pick : Picker)
    (calls : List Nat) (r : Request) :
    (∀ e ∈ (run t.graph pick calls r).edges,
      (t.graph.isHop e = true ∨ ∃ g ∈ Compile.groups t, e ∈ g.edges) ↔
        t.graph.isGap e = false) ∧
    (t.RoutesWithin → ∀ e ∈ (run t.graph pick calls r).edges,
      t.graph.isHop e = true ∨ ∃ g ∈ Compile.groups t, e ∈ g.edges) := by
  have hexact : ∀ e ∈ (run t.graph pick calls r).edges,
      (t.graph.isHop e = true ∨ ∃ g ∈ Compile.groups t, e ∈ g.edges) ↔
        t.graph.isGap e = false := by
    intro e he
    obtain ⟨hmem, hlink, -⟩ := of_mem_run (g := t.graph) hids he
    rw [Compile.mem_edges_iff hids hmem, Graph.isGap, hlink]
    cases t.graph.isHop e <;> simp
  refine ⟨hexact, fun hwithin e he => (hexact e he).mpr ?_⟩
  obtain ⟨hmem, -, hleaves⟩ := of_mem_run (g := t.graph) hids he
  rw [Graph.isGap]
  rcases hleaves with hkind | hhop
  · cases hcrosses : t.graph.crossesGroups e with
    | false => rfl
    | true => exact absurd hkind (hwithin e hmem hcrosses)
  · rw [hhop, Bool.not_true, Bool.and_false]

end

attribute [local instance] Rule.Patterns.empty

theorem run_edges_relayed :
    (relayed.nodes.map Placed.id).Nodup ∧ relayed.RoutesWithin ∧
      (run relayed.graph firstPicker [] ⟨"example.com", "tcp", 443, "near"⟩).edges =
        relayed.edges ∧
      ∀ e ∈ (run relayed.graph firstPicker [] ⟨"example.com", "tcp", 443, "near"⟩).edges,
        relayed.graph.isHop e = true ∨ ∃ g ∈ Compile.groups relayed, e ∈ g.edges := by
  have hids : (relayed.nodes.map Placed.id).Nodup := by decide
  have hwithin : relayed.RoutesWithin := by decide +kernel
  exact ⟨hids, hwithin, by decide +kernel, (run_edges hids firstPicker [] _).2 hwithin⟩

/-- An inbound on one server that leads to an outbound on another. -/
def bridged : Topology where
  nodes := [
    ⟨"in", .origin, .inbound ⟨"in", .socks, "", 1080, none, [], none, none⟩, some "home"⟩,
    ⟨"direct", .origin, .terminal ⟨"direct", .freedom⟩, some "away"⟩]
  edges := [⟨"a", "in", "direct", .plain, none⟩]
  servers := []

/-- Nothing is wrong with the graph and the request is delivered, but over an edge that
is no hop and in no group; no document has a rule for the request. -/
theorem run_bridged :
    (bridged.nodes.map Placed.id).Nodup ∧ (Audit.check bridged.graph).isValid = true ∧
      (run bridged.graph firstPicker [] ⟨"example.com", "tcp", 443, "in"⟩).success = true ∧
      (∃ e ∈ (run bridged.graph firstPicker [] ⟨"example.com", "tcp", 443, "in"⟩).edges,
        bridged.graph.isHop e = false ∧ ∀ g ∈ Compile.groups bridged, e ∉ g.edges) ∧
      ∀ out ∈ bridged.compile .usual, out.document.routing.rules = [] := by
  refine ⟨?_, ?_, ?_, ⟨⟨"a", "in", "direct", .plain, none⟩, ?_, ?_, ?_⟩, ?_⟩ <;> decide +kernel

end Trace
end ProxyPlan
