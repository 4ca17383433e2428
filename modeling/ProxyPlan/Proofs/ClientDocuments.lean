/-
ProxyPlan.Proofs.ClientDocuments — the documents of a client graph, one by one.

There is the user's document and one for every server that passes traffic on, which is a
server with an edge to a server (`Graph.Relays`, `mem_compile`). The outbounds of the
user's document are those of the nodes, each once and in some order, and at most one more:
a way out that is added if the user has drawn none and has not used its tag
(`outbounds_perm`).
-/
import Mathlib.Data.List.Perm.Basic
import ProxyPlan.Client.Compile

namespace ProxyPlan.Client

open Compile (Options Output)

variable {g : Graph} {o : Options}

/-! ## Servers that pass traffic on -/

theorem mem_of_mem_targets {n : Node} {id : String} (h : n ∈ g.targets id) : n ∈ g.nodes := by
  obtain ⟨e, -, hn⟩ := List.mem_filterMap.mp h
  exact List.mem_reverse.mp (List.mem_of_find?_eq_some hn)

/-- What a server leads to is itself a server of the graph. -/
theorem exists_of_nextRelay? {id : String} {next : Relay} (h : g.nextRelay? id = some next) :
    ∃ m ∈ g.nodes, m.role = .server next := by
  obtain ⟨m, hm, hnext⟩ := List.exists_of_findSome?_eq_some h
  refine ⟨m, mem_of_mem_targets hm, ?_⟩
  split at hnext
  case h_1 relay hrole => rw [hrole, Option.some.inj hnext]
  case h_2 => cases hnext

/-- The node is a server that passes traffic on to another one. -/
structure Graph.Relays (g : Graph) (n : Node) (r next : Relay) : Prop where
  mem : n ∈ g.nodes
  role : n.role = .server r
  next : g.nextRelay? n.id = some next

/-- The file of a server that passes traffic on. -/
def relayOutput (o : Options) (r next : Relay) : Output :=
  ⟨"server-" ++ r.tag ++ ".json", relayDocument r next o⟩

theorem Graph.Relays.relayOutput? {n : Node} {r next : Relay} (h : g.Relays n r next) :
    g.relayOutput? o n = some (relayOutput o r next) := by
  rw [Graph.relayOutput?, h.role]
  simp [h.next, relayOutput]

theorem relayOutput?_eq_some {n : Node} {out : Output} (hn : n ∈ g.nodes) :
    g.relayOutput? o n = some out ↔ ∃ r next, g.Relays n r next ∧ out = relayOutput o r next := by
  constructor
  · intro hout
    rw [Graph.relayOutput?] at hout
    split at hout
    case h_1 r hrole =>
      obtain ⟨next, hnext, rfl⟩ := Option.map_eq_some_iff.mp hout
      exact ⟨r, next, ⟨hn, hrole, hnext⟩, rfl⟩
    case h_2 => cases hout
  · rintro ⟨r, next, h, rfl⟩
    exact h.relayOutput?

/-- There are the document of the user and those of the servers that pass traffic on. -/
theorem mem_compile {out : Output} : out ∈ g.compile o ↔
    out = ⟨"client.json", g.clientDocument o⟩ ∨
      ∃ n r next, g.Relays n r next ∧ out = relayOutput o r next := by
  rw [Graph.compile, List.mem_cons, List.mem_filterMap]
  refine or_congr_right ?_
  constructor
  · rintro ⟨n, hn, hout⟩
    exact ⟨n, (relayOutput?_eq_some hn).mp hout⟩
  · rintro ⟨n, r, next, h, rfl⟩
    exact ⟨n, h.mem, h.relayOutput?⟩

/-! ## Outbounds of the user's document -/

/-- The tags that the user has given to outbounds, in the order of the nodes. -/
def Graph.writtenTags (g : Graph) : List String := g.nodes.filterMap Node.outboundTag?

/-- The outbound of a node has the tag of the node. -/
theorem tag_outboundOf? (n : Node) :
    (outboundOf? n).map Document.Outbound.tag = n.outboundTag? := by
  obtain ⟨id, position, role, server⟩ := n
  cases role <;> rfl

theorem foldl_withOutbound_perm (tag : Option String) (listed outbounds : List Document.Outbound) :
    (outbounds.foldl (withOutbound tag) listed).Perm (listed ++ outbounds) := by
  induction outbounds generalizing listed with
  | nil => simp
  | cons out rest ih =>
    rw [List.foldl_cons]
    refine (ih _).trans ?_
    unfold withOutbound
    split
    · exact List.perm_middle.symm
    · rw [List.append_assoc, List.singleton_append]

theorem defaultFirst_perm (tag : Option String) (outbounds : List Document.Outbound) :
    (defaultFirst tag outbounds).Perm outbounds :=
  foldl_withOutbound_perm tag [] outbounds

/-- The outbounds of the user's document are those of the nodes, and a way out if none of
them has its tag and the user has drawn none. -/
theorem outbounds_perm : ∃ added : List Document.Outbound,
    g.outbounds.Perm (g.nodes.filterMap outboundOf? ++ added) ∧
      (added = [] ∨ added = [direct "direct"] ∧ "direct" ∉ g.writtenTags) := by
  have hlisted := defaultFirst_perm g.defaultTag? (g.nodes.filterMap outboundOf?)
  rw [Graph.outbounds]
  split
  case isTrue => exact ⟨[], by rwa [List.append_nil], .inl rfl⟩
  case isFalse hadded =>
    refine ⟨_, hlisted.append_right _, .inr ⟨rfl, fun hdirect => hadded ?_⟩⟩
    rw [Graph.writtenTags, ← funext tag_outboundOf?, ← List.map_filterMap] at hdirect
    obtain ⟨out, hout, htag⟩ := List.mem_map.mp hdirect
    exact Bool.or_eq_true_iff.mpr
      (.inr (List.any_eq_true.mpr ⟨out, hlisted.mem_iff.mpr hout, by simp [htag]⟩))

/-- The outbound of a node is in the user's document. -/
theorem outbound_mem {n : Node} (hn : n ∈ g.nodes) {out : Document.Outbound}
    (hout : outboundOf? n = some out) : out ∈ g.outbounds := by
  obtain ⟨added, hperm, -⟩ := outbounds_perm (g := g)
  exact hperm.mem_iff.mpr (List.mem_append_left _ (List.mem_filterMap.mpr ⟨n, hn, hout⟩))

/-- Every node that can be a target has its outbound. -/
theorem mem_outbounds {n : Node} (hn : n ∈ g.nodes) {tag : String}
    (htag : n.outboundTag? = some tag) : tag ∈ g.outbounds.map Document.Outbound.tag := by
  rw [← tag_outboundOf?] at htag
  obtain ⟨out, hout, rfl⟩ := Option.map_eq_some_iff.mp htag
  exact List.mem_map_of_mem (outbound_mem hn hout)

/-- The outbounds have the tags that the user has written. One may be added, and only if its
tag is none of them. -/
theorem tags_outbounds : ∃ added : List String,
    (g.outbounds.map Document.Outbound.tag).Perm (g.writtenTags ++ added) ∧
      (added = [] ∨ added = ["direct"] ∧ "direct" ∉ g.writtenTags) := by
  obtain ⟨added, hperm, hadded⟩ := outbounds_perm (g := g)
  refine ⟨added.map Document.Outbound.tag, ?_, ?_⟩
  · have htags := hperm.map Document.Outbound.tag
    rwa [List.map_append, List.map_filterMap, funext tag_outboundOf?] at htags
  · obtain rfl | ⟨rfl, hfree⟩ := hadded
    · exact .inl rfl
    · exact .inr ⟨rfl, hfree⟩

end ProxyPlan.Client
