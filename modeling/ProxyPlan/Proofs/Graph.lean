/-
ProxyPlan.Proofs.Graph — nodes by identity, and the links of a node.

An identity stands for the first node that has it; when identities do not
repeat, that is the only one. The links of a node are the edges between nodes
that leave it, and looking at some of them only does not change their order.
-/
import Mathlib.Data.List.Pairwise
import ProxyPlan.Graph.Basic
import ProxyPlan.Proofs.Order

namespace ProxyPlan

/-! ## Configurations -/

namespace Node

theorem inbound?_eq_some {n : Node} {c : Inbound} : n.inbound? = some c ↔ n.role = .inbound c := by
  obtain ⟨id, position, role, server⟩ := n
  cases role <;> simp [inbound?]

theorem routing?_eq_some {n : Node} {c : Routing} : n.routing? = some c ↔ n.role = .routing c := by
  obtain ⟨id, position, role, server⟩ := n
  cases role <;> simp [routing?]

theorem kind_of_inbound? {n : Node} {c : Inbound} (h : n.inbound? = some c) :
    n.kind = .inbound := congrArg Role.kind (inbound?_eq_some.mp h)

theorem kind_of_routing? {n : Node} {c : Routing} (h : n.routing? = some c) :
    n.kind = .routing := congrArg Role.kind (routing?_eq_some.mp h)

theorem tag?_of_inbound? {n : Node} {c : Inbound} (h : n.inbound? = some c) :
    n.tag? = some c.tag := congrArg Role.tag? (inbound?_eq_some.mp h)

theorem exists_routing? {n : Node} (h : n.kind = .routing) : ∃ c, n.routing? = some c := by
  obtain ⟨id, position, role, server⟩ := n
  cases role <;> simp_all [kind, Role.kind, routing?]

theorem exists_inbound? {n : Node} (h : n.kind = .inbound) {tag : String}
    (htag : n.tag? = some tag) : ∃ c, n.inbound? = some c ∧ c.tag = tag := by
  obtain ⟨id, position, role, server⟩ := n
  cases role <;> cases h
  exact ⟨_, rfl, Option.some.inj htag⟩

end Node

/-- No two inbounds have the same tag. -/
def DistinctInbounds (nodes : List Node) : Prop :=
  ((nodes.filterMap Node.inbound?).map Inbound.tag).Nodup

theorem DistinctInbounds.eq {nodes : List Node} (h : DistinctInbounds nodes) {n m : Node}
    (hn : n ∈ nodes) (hm : m ∈ nodes) {c c' : Inbound} (hc : n.inbound? = some c)
    (hc' : m.inbound? = some c') (htag : c.tag = c'.tag) : n = m := by
  let Differ : Node → Node → Prop := fun a b =>
    ∀ t, a.inbound?.map Inbound.tag = some t → ∀ t', b.inbound?.map Inbound.tag = some t' → t ≠ t'
  have : Std.Symm Differ := ⟨fun a b hab t ht t' ht' heq => hab t' ht' t ht heq.symm⟩
  have hall : nodes.Pairwise Differ := by
    rwa [DistinctInbounds, List.map_filterMap, List.Nodup, List.pairwise_filterMap] at h
  by_contra hne
  exact hall.forall hn hm hne c.tag (by rw [hc]; rfl) c'.tag (by rw [hc']; rfl) htag

/-- A node that is no inbound has no tag of an inbound. -/
theorem DistinctInbounds.append {nodes : List Node} (h : DistinctInbounds nodes) {n : Node}
    (hkind : n.kind ≠ .inbound) : DistinctInbounds (nodes ++ [n]) := by
  have hinbound : n.inbound? = none := by
    cases hc : n.inbound? with
    | none => rfl
    | some c => exact absurd (Node.kind_of_inbound? hc) hkind
  rw [DistinctInbounds, List.filterMap_append]
  simpa [hinbound, DistinctInbounds] using h

/-- A tag in the list of the tags is the tag of an inbound. -/
theorem exists_inbound_of_tags {nodes : List Node} {tags : List String}
    (h : (nodes.filterMap Node.inbound?).map Inbound.tag = tags) (tag : String)
    (htag : tag ∈ tags) : ∃ i ∈ nodes, ∃ c, i.inbound? = some c ∧ c.tag = tag := by
  obtain ⟨c, hc, hself⟩ := List.mem_map.mp (h ▸ htag)
  obtain ⟨i, hi, hic⟩ := List.mem_filterMap.mp hc
  exact ⟨i, hi, c, hic, hself⟩

namespace Graph

variable {g : Graph}

/-! ## Nodes -/

theorem mem_ids {id : String} : id ∈ g.ids ↔ ∃ n ∈ g.nodes, n.id = id := by
  simp [ids]

theorem node?_id {id : String} {n : Node} (h : g.node? id = some n) : n.id = id := by
  simpa using List.find?_some h

theorem node?_mem {id : String} {n : Node} (h : g.node? id = some n) : n ∈ g.nodes :=
  List.mem_of_find?_eq_some h

theorem isSome_node? {id : String} : (g.node? id).isSome = true ↔ id ∈ g.ids := by
  simp [node?, mem_ids]

/-- If identities do not repeat, every node is the one of its identity. -/
theorem node?_of_mem (hids : (g.nodes.map Placed.id).Nodup) {n : Node} (h : n ∈ g.nodes) :
    g.node? n.id = some n := by
  obtain ⟨m, hm⟩ := Option.isSome_iff_exists.mp (isSome_node?.mpr (mem_ids.mpr ⟨n, h, rfl⟩))
  have hmn : m = n := List.inj_on_of_nodup_map hids (node?_mem hm) h (node?_id hm)
  rw [hm, hmn]

/-- If identities do not repeat, at most one node has a given one. -/
theorem filter_id (hids : (g.nodes.map Placed.id).Nodup) (id : String) :
    (g.nodes.filter fun n => n.id == id) = (g.node? id).toList := by
  obtain ⟨nodes, edges⟩ := g
  simp only [node?] at hids ⊢
  induction nodes with
  | nil => rfl
  | cons n rest ih =>
    obtain ⟨hn, hrest⟩ := List.nodup_cons.mp hids
    rw [List.filter_cons, List.find?_cons]
    cases hid : n.id == id with
    | false => exact ih hrest
    | true =>
      have hnone : rest.filter (fun m => m.id == id) = [] := by
        rw [List.filter_eq_nil_iff]
        intro m hm hmid
        refine hn (List.mem_map.mpr ⟨m, hm, ?_⟩)
        rw [beq_iff_eq.mp hid, beq_iff_eq.mp hmid]
      simp [hnone]

theorem kind?_eq_some {id : String} {k : Kind} :
    g.kind? id = some k ↔ ∃ n, g.node? id = some n ∧ n.kind = k := by
  simp [kind?]

/-! ## Links -/

theorem isLink_iff {e : Edge} : g.isLink e = true ↔ e.source ∈ g.ids ∧ e.target ∈ g.ids := by
  simp only [isLink, source?, target?, Bool.and_eq_true, isSome_node?]

theorem isLink_iff_ends {e : Edge} :
    g.isLink e = true ↔ ∃ s t, g.source? e = some s ∧ g.target? e = some t := by
  simp only [isLink, Bool.and_eq_true, Option.isSome_iff_exists, exists_and_left, exists_and_right]

/-- If every edge is a link, no link is passed over. -/
theorem linksThat_eq (hlink : ∀ e ∈ g.edges, g.isLink e = true) (test : Edge → Bool) :
    g.linksThat test = g.edges.filter test := by
  refine List.filter_congr fun e he => ?_
  rw [hlink e he, Bool.and_true]

/-! ### Edges by priority -/

instance : Std.Total fun a b : Edge => a.priority ≤ b.priority :=
  ⟨fun a b => UInt32.le_total a.priority b.priority⟩

instance : IsTrans Edge fun a b => a.priority ≤ b.priority :=
  ⟨fun _ _ _ => UInt32.le_trans⟩

theorem byPriority_eq (edges : List Edge) :
    byPriority edges = edges.insertionSort fun a b => a.priority ≤ b.priority :=
  Order.sort_eq_insertionSort edges

theorem byPriority_perm (edges : List Edge) : (byPriority edges).Perm edges := by
  rw [byPriority_eq]
  exact List.perm_insertionSort _ edges

@[simp] theorem mem_byPriority {e : Edge} {edges : List Edge} :
    e ∈ byPriority edges ↔ e ∈ edges :=
  (byPriority_perm edges).mem_iff

/-- The order of some of the edges does not depend on the others. -/
theorem filter_byPriority (test : Edge → Bool) (edges : List Edge) :
    (byPriority edges).filter test = byPriority (edges.filter test) := by
  rw [byPriority_eq, byPriority_eq, Order.filter_insertionSort]

/-- An edge before all others that is as good as any of them is the best one. -/
theorem byPriority_cons {e : Edge} {edges : List Edge}
    (h : ∀ e' ∈ edges, e.priority ≤ e'.priority) :
    byPriority (e :: edges) = e :: byPriority edges := by
  rw [byPriority_eq, byPriority_eq, List.insertionSort_cons_of_forall_rel _ h]

theorem byPriority_eq_self {edges : List Edge}
    (h : edges.Pairwise fun a b => a.priority ≤ b.priority) : byPriority edges = edges := by
  rw [byPriority_eq, h.insertionSort_eq]

theorem byPriority_sorted (edges : List Edge) :
    (byPriority edges).Pairwise fun a b => a.priority ≤ b.priority := by
  rw [byPriority_eq]
  exact List.pairwise_insertionSort _ edges

/-- Edges of one priority stand in the order of the list. -/
theorem filter_priority (edges : List Edge) (p : UInt32) :
    ((byPriority edges).filter fun e => e.priority = p) = edges.filter fun e => e.priority = p := by
  rw [filter_byPriority]
  refine byPriority_eq_self (List.pairwise_of_forall_mem_list fun a ha b hb => ?_)
  have hap : a.priority = p := by simpa using (List.mem_filter.mp ha).2
  have hbp : b.priority = p := by simpa using (List.mem_filter.mp hb).2
  rw [hap, hbp]
  exact UInt32.le_refl p

theorem mem_outgoing {e : Edge} {id : String} :
    e ∈ g.outgoing id ↔ e ∈ g.edges ∧ e.source = id ∧ g.isLink e = true := by
  simp [outgoing, linksThat]

theorem mem_incoming {e : Edge} {id : String} :
    e ∈ g.incoming id ↔ e ∈ g.edges ∧ e.target = id ∧ g.isLink e = true := by
  simp [incoming, linksThat]

end Graph
end ProxyPlan
