/-
ProxyPlan.Proofs.Index — a filed graph says what the graph says.

Filing goes over the nodes once and over the edges once, and what it leaves behind is known for
each part alone: who is on the roll after some nodes (`Roll.Lists.foldl`), what has been told
apart after some edges (`Sorting.foldl_add`), and what is in a bucket after some pushes
(`EdgeFile.bucket_foldl`). The parts then fit together because each is given by the graph's nodes and
edges and none by another part: the roll has the first node of every identity under a number of
its own, and the links are those edges whose ends are on it.

A link from a node to itself is filed under both its ends, which are one, and edges that are
equal in all respects are filed as often as they occur; hence the count in `Files`.
-/
import ProxyPlan.Graph.Index
import ProxyPlan.Proofs.Graph

namespace ProxyPlan

/-! ## Files -/

namespace EdgeFile

variable {key : Edge → String} {e : Edge} {k : String}

theorem lookup_pushTo (buckets : List (String × List Edge)) (key : String) (e : Edge) (k : String) :
    ((pushTo key e buckets).lookup k).getD [] =
      if key = k then (buckets.lookup k).getD [] ++ [e] else (buckets.lookup k).getD [] := by
  induction buckets with
  | nil =>
    rw [pushTo, List.lookup_cons]
    by_cases hk : key = k
    · simp [hk]
    · have hne : (k == key) = false := by simpa using Ne.symm hk
      simp [hk, hne]
  | cons b rest ih =>
    obtain ⟨k', es⟩ := b
    unfold pushTo
    split
    case isTrue hkey =>
      subst hkey
      rw [List.lookup_cons, List.lookup_cons]
      by_cases hk : k' = k
      · simp [hk]
      · have hne : (k == k') = false := by simpa using Ne.symm hk
        simp [hk, hne]
    case isFalse hkey =>
      rw [List.lookup_cons, List.lookup_cons]
      cases hk : k == k' with
      | false => exact ih
      | true =>
        rw [beq_iff_eq] at hk
        subst hk
        simp [Ne.symm hkey]

/-- An edge goes to the end of the bucket of its key and to no other. -/
theorem bucket_push (f : EdgeFile) (e : Edge) (k : String) :
    (f.push key e).bucket k = if key e = k then f.bucket k ++ [e] else f.bucket k :=
  lookup_pushTo f.buckets (key e) e k

theorem bucket_foldl (edges : List Edge) (f : EdgeFile) (k : String) :
    (edges.foldl (push key) f).bucket k = f.bucket k ++ edges.filter fun e => key e == k := by
  induction edges generalizing f with
  | nil => simp
  | cons e rest ih =>
    rw [List.foldl_cons, ih, bucket_push, List.filter_cons]
    by_cases h : key e = k <;> simp [h]

theorem bucket_sorted (f : EdgeFile) (k : String) :
    f.sorted.bucket k = Graph.byPriority (f.bucket k) := by
  obtain ⟨buckets⟩ := f
  show ((buckets.map _).lookup k).getD [] = Graph.byPriority ((buckets.lookup k).getD [])
  induction buckets with
  | nil => rfl
  | cons b rest ih =>
    rw [List.map_cons, List.lookup_cons, List.lookup_cons]
    cases k == b.1 with
    | false => exact ih
    | true => rfl

theorem bucket_ofEdges (edges : List Edge) (k : String) :
    (ofEdges key edges).bucket k = Graph.byPriority (edges.filter fun e => key e == k) := by
  rw [ofEdges, bucket_sorted, bucket_foldl]
  rfl

end EdgeFile

/-- Edges are filed under a key: each is in the bucket of its key as often as it occurs, and in no
other; a bucket is in the order of the priorities, edges of one priority in the order of the
list. -/
structure Files (edges : List Edge) (key : Edge → String) (bucket : String → List Edge) :
    Prop where
  count : ∀ k e, (bucket k).count e = if key e = k then edges.count e else 0
  sorted : ∀ k, (bucket k).Pairwise fun a b => a.priority ≤ b.priority
  ties : ∀ k p, ((bucket k).filter fun e => e.priority = p) =
    edges.filter fun e => key e = k ∧ e.priority = p

namespace Graph

/-- Buckets that hold the links of their keys by priority are a filing of the links. -/
theorem files_links (g : Graph) (key : Edge → String) :
    Files (g.edges.filter g.isLink) key fun k => byPriority (g.linksThat fun e => key e == k) where
  count k e := by
    rw [(byPriority_perm _).count_eq, linksThat, ← List.filter_filter]
    by_cases hk : key e = k
    · rw [if_pos hk, List.count_filter (by simpa using hk)]
    · rw [if_neg hk, List.count_eq_zero]
      intro he
      exact hk (by simpa using (List.mem_filter.mp he).2)
  sorted k := byPriority_sorted _
  ties k p := by
    rw [filter_priority, linksThat, ← List.filter_filter, List.filter_filter]
    refine List.filter_congr fun e _ => ?_
    rw [Bool.and_comm, Bool.decide_and]
    rfl

theorem files_outgoing (g : Graph) : Files (g.edges.filter g.isLink) Edge.source g.outgoing :=
  g.files_links Edge.source

theorem files_incoming (g : Graph) : Files (g.edges.filter g.isLink) Edge.target g.incoming :=
  g.files_links Edge.target

end Graph

/-! ## Nodes by number -/

namespace Roll

variable {r : Roll} {ns : List Node}

/-- The roll of some nodes: each identity has a number of its own, in the order in which they are
first met, and stands for the first node that has it. -/
structure Lists (ns : List Node) (r : Roll) : Prop where
  ids : r.ids = Order.distinct (ns.map Placed.id)
  number : ∀ id k, r.number? id = some k ↔ r.ids[k]? = some id
  node : ∀ id, r.node? id = ns.find? fun n => n.id == id

theorem lists_nil : Lists [] ⟨[], [], []⟩ where
  ids := rfl
  number id k := by simp [number?]
  node id := rfl

theorem Lists.mem_ids (h : Lists ns r) {id : String} : id ∈ r.ids ↔ ∃ n ∈ ns, n.id = id := by
  rw [h.ids, Order.mem_distinct, List.mem_map]

theorem Lists.find?_isSome (h : Lists ns r) {id : String} :
    (r.node? id).isSome = true ↔ id ∈ r.ids := by
  simp [h.node, h.mem_ids]

/-- A node whose identity is on the roll is passed over. -/
theorem Lists.add_again (h : Lists ns r) {n : Node} (hn : (r.node? n.id).isSome = true) :
    Lists (ns ++ [n]) r where
  ids := by
    obtain ⟨m, hm, hid⟩ := h.mem_ids.mp (h.find?_isSome.mp hn)
    rw [h.ids, List.map_append]
    refine (Order.firsts_append_repeated fun id hmem => .inl ?_).symm
    obtain rfl : id = n.id := by simpa using hmem
    exact List.mem_map.mpr ⟨m, hm, hid⟩
  number := h.number
  node id := by
    rw [h.node, List.find?_append, List.find?_singleton]
    by_cases hid : n.id = id
    · subst hid
      obtain ⟨m, hm⟩ := Option.isSome_iff_exists.mp hn
      rw [← h.node, hm, Option.some_or]
    · simp [hid]

/-- A node with a new identity gets the next number. -/
theorem Lists.add_new (h : Lists ns r) {n : Node} (hn : (r.node? n.id).isSome = false) :
    Lists (ns ++ [n])
      ⟨r.ids ++ [n.id], (n.id, r.ids.length) :: r.numbers, (n.id, n) :: r.nodes⟩ where
  ids := by
    have hnew : n.id ∉ ns.map Placed.id := by
      rw [← Order.mem_distinct, ← h.ids, ← h.find?_isSome, hn]
      exact Bool.false_ne_true
    rw [List.map_append, Order.distinct_append_same hnew (by simp) (by simp), ← h.ids]
  number id k := by
    have hnew : n.id ∉ r.ids := by
      rw [← h.find?_isSome, hn]
      exact Bool.false_ne_true
    rw [number?, List.lookup_cons, List.getElem?_append]
    by_cases hid : id = n.id
    case pos =>
      subst hid
      rw [beq_self_eq_true]
      show some r.ids.length = some k ↔ _
      split
      case isTrue hk =>
        refine iff_of_false ?_ fun hmem => hnew (List.mem_of_getElem? hmem)
        simp only [Option.some.injEq]
        omega
      case isFalse hk =>
        rw [List.getElem?_singleton]
        constructor
        · intro heq
          rw [if_pos (by simp only [Option.some.injEq] at heq; omega)]
        · intro heq
          split at heq
          · exact congrArg some (by omega)
          · cases heq
    case neg =>
      have hne : (id == n.id) = false := by simpa using hid
      rw [hne]
      refine (h.number id k).trans ?_
      split
      case isTrue => rfl
      case isFalse hk =>
        rw [List.getElem?_eq_none (Nat.le_of_not_lt hk), List.getElem?_singleton]
        split <;> simp [Ne.symm hid]
  node id := by
    rw [node?, List.lookup_cons, List.find?_append, List.find?_singleton]
    by_cases hid : id = n.id
    case pos =>
      subst hid
      have hnone : ns.find? (fun m => m.id == n.id) = none := by
        rw [← h.node]
        simpa using hn
      simp [hnone]
    case neg =>
      have hne : (id == n.id) = false := by simpa using hid
      have hnot : (n.id == id) = false := by simpa using Ne.symm hid
      rw [hne, hnot]
      simpa [node?] using h.node id

theorem Lists.add (h : Lists ns r) (n : Node) : Lists (ns ++ [n]) (r.add n) := by
  unfold Roll.add
  split
  case isTrue hn => exact h.add_again hn
  case isFalse hn => exact h.add_new (by simpa using hn)

theorem Lists.foldl (h : Lists ns r) (ms : List Node) : Lists (ns ++ ms) (ms.foldl Roll.add r) := by
  induction ms generalizing ns r with
  | nil => rwa [List.append_nil]
  | cons n rest ih =>
    rw [List.foldl_cons, List.append_cons]
    exact ih (h.add n)

theorem lists_ofNodes (nodes : List Node) : Lists nodes (ofNodes nodes) :=
  lists_nil.foldl nodes

end Roll

/-! ## Arcs -/

/-- An arc is the link of a graph whose nodes have numbers. -/
structure Arc.Draws (g : Graph) (ids : List String) (e : Edge) (a : Arc) : Prop where
  edge : a.edge = e.id
  source : ids[a.source]? = some e.source
  target : ids[a.target]? = some e.target
  hop : a.hop = true ↔ g.kind? e.source = some .proxy ∧ g.kind? e.target = some .inbound

namespace Sorting

variable {g : Graph} {r : Roll} {e : Edge}

theorem number_eq (h : r.Lists g.nodes) {id : String} {n : Node} (hn : g.node? id = some n) :
    r.ids[(r.number? n.id).getD 0]? = some id := by
  obtain rfl := Graph.node?_id hn
  have hmem : n.id ∈ r.ids := h.mem_ids.mpr ⟨n, Graph.node?_mem hn, rfl⟩
  obtain ⟨k, hk⟩ := List.mem_iff_getElem?.mp hmem
  rw [(h.number n.id k).mpr hk]
  exact hk

theorem draws_arc (h : r.Lists g.nodes) {s t : Node} (hs : g.source? e = some s)
    (ht : g.target? e = some t) : (arc r s t e).Draws g r.ids e where
  edge := rfl
  source := number_eq h hs
  target := number_eq h ht
  hop := by
    have hsource : g.kind? e.source = some s.kind := congrArg (Option.map Node.kind) hs
    have htarget : g.kind? e.target = some t.kind := congrArg (Option.map Node.kind) ht
    simp [arc, hsource, htarget]

theorem node?_source (h : r.Lists g.nodes) : r.node? e.source = g.source? e := h.node e.source

theorem node?_target (h : r.Lists g.nodes) : r.node? e.target = g.target? e := h.node e.target

theorem add_link (h : r.Lists g.nodes) (he : g.isLink e = true) (sorting : Sorting) :
    ∃ a : Arc, a.Draws g r.ids e ∧ add r sorting e =
      { sorting with arcs := sorting.arcs ++ [a], links := sorting.links ++ [e] } := by
  obtain ⟨s, t, hs, ht⟩ := Graph.isLink_iff_ends.mp he
  refine ⟨arc r s t e, draws_arc h hs ht, ?_⟩
  rw [add, node?_source h, node?_target h, hs, ht]

theorem add_dangling (h : r.Lists g.nodes) (he : g.isLink e = false) (sorting : Sorting) :
    add r sorting e = { sorting with dangling := sorting.dangling ++ [e] } := by
  rw [add, node?_source h, node?_target h]
  split
  case h_1 s t hs ht =>
    have hlink := Graph.isLink_iff_ends.mpr ⟨s, t, hs, ht⟩
    rw [he] at hlink
    cases hlink
  case h_2 => rfl

/-- Edges are told apart one by one, and the arcs are those of the links in their order. -/
theorem foldl_add (h : r.Lists g.nodes) (edges : List Edge) (sorting : Sorting) :
    ∃ arcs, List.Forall₂ (fun e a => Arc.Draws g r.ids e a) (edges.filter g.isLink) arcs ∧
      edges.foldl (add r) sorting =
        ⟨sorting.arcs ++ arcs, sorting.links ++ edges.filter g.isLink,
          sorting.dangling ++ edges.filter fun e => !g.isLink e⟩ := by
  induction edges generalizing sorting with
  | nil => exact ⟨[], .nil, by simp⟩
  | cons e rest ih =>
    rw [List.foldl_cons, List.filter_cons, List.filter_cons]
    cases he : g.isLink e with
    | true =>
      obtain ⟨a, ha, hadd⟩ := add_link h he sorting
      obtain ⟨arcs, hdraws, hrest⟩ := ih (add r sorting e)
      refine ⟨a :: arcs, .cons ha hdraws, ?_⟩
      rw [hrest, hadd]
      simp
    | false =>
      obtain ⟨arcs, hdraws, hrest⟩ := ih (add r sorting e)
      refine ⟨arcs, hdraws, ?_⟩
      rw [hrest, add_dangling h he]
      simp

theorem ofEdges_spec (h : r.Lists g.nodes) :
    List.Forall₂ (fun e a => Arc.Draws g r.ids e a) (g.edges.filter g.isLink)
        (ofEdges r g.edges).arcs ∧
      (ofEdges r g.edges).links = g.edges.filter g.isLink ∧
      (ofEdges r g.edges).dangling = g.edges.filter fun e => !g.isLink e := by
  obtain ⟨arcs, hdraws, hsorting⟩ := foldl_add h g.edges ⟨[], [], []⟩
  rw [ofEdges, hsorting]
  exact ⟨hdraws, rfl, rfl⟩

end Sorting

/-! ## The whole graph -/

namespace Index

/-- What a filed graph has to say of the graph. -/
structure Faithful (g : Graph) (i : Index) : Prop where
  /-- Each identity has one number, and the first node that has it stands for it. -/
  roll : i.roll.Lists g.nodes
  /-- The links are arcs between the numbers of their ends, one each, in the order of the list. -/
  arcs : List.Forall₂ (fun e a => Arc.Draws g i.roll.ids e a) (g.edges.filter g.isLink) i.arcs
  outgoing : Files (g.edges.filter g.isLink) Edge.source i.outgoing
  incoming : Files (g.edges.filter g.isLink) Edge.target i.incoming
  /-- All other edges are put aside, in the order of the list. -/
  dangling : i.dangling = g.edges.filter fun e => !g.isLink e

/-- What is filed under an identity are its links, by priority. -/
theorem bucket_links (g : Graph) (key : Edge → String) (id : String) :
    (EdgeFile.ofEdges key (Sorting.ofEdges (.ofNodes g.nodes) g.edges).links).bucket id =
      Graph.byPriority (g.linksThat fun e => key e == id) := by
  obtain ⟨-, hlinks, -⟩ := Sorting.ofEdges_spec (g := g) (Roll.lists_ofNodes g.nodes)
  rw [EdgeFile.bucket_ofEdges, hlinks, List.filter_filter, Graph.linksThat]

theorem outgoing_ofGraph (g : Graph) : (ofGraph g).outgoing = g.outgoing :=
  funext (bucket_links g Edge.source)

theorem incoming_ofGraph (g : Graph) : (ofGraph g).incoming = g.incoming :=
  funext (bucket_links g Edge.target)

/-- A filed graph says what the graph says, whatever its nodes and edges: identities may repeat,
and edges may lead nowhere or from a node to itself, and may be alike. -/
theorem ofGraph_faithful (g : Graph) : (ofGraph g).Faithful g := by
  have hroll := Roll.lists_ofNodes g.nodes
  obtain ⟨hdraws, -, hdangling⟩ := Sorting.ofEdges_spec (g := g) hroll
  exact {
    roll := hroll
    arcs := hdraws
    outgoing := outgoing_ofGraph g ▸ g.files_outgoing
    incoming := incoming_ofGraph g ▸ g.files_incoming
    dangling := hdangling }

end Index
end ProxyPlan
