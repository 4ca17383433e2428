/-
ProxyPlan.Proofs.Progress — a graph that strands no request.

A walk fails at a node that has nowhere to send the request, or at a node that it has
been at before. A complete graph rules out both, for every request and whatever its
balancers pick.

  · What a node needs depends on its kind. An inbound may find that no rule matches and
    needs a link past the rules; a routing node and a balancer need any link. A proxy
    outbound delivers what it cannot pass on, and a terminal outbound delivers
    everything. That leaves devices, and no node may lead to one
    (`Complete.keeps`, `Complete.next`).
  · From every node that a walk has met, links lead to the node it stands on. To meet
    one again would be to go in a circle (`Way.delivered`).

Circles count here even if they pass from server to server: those the check of a graph
allows, and a walk gets caught in them all the same.
-/
import ProxyPlan.Proofs.Reach
import ProxyPlan.Proofs.Walk

namespace ProxyPlan

open Relation (TransGen ReflTransGen)

/-! ## Circles of links -/

namespace Graph

variable {g : Graph}

/-- No links lead from a node back to it, hops to other servers included. -/
def Acyclic (g : Graph) : Prop := ∀ v, ¬ TransGen g.LinksTo v v

/-- A circle would pass over some link, so it is enough to ask of each link whether one
can get back from its end. -/
theorem acyclic_iff : g.Acyclic ↔ ∀ e ∈ g.links, e.source ∉ g.reachable e.target := by
  constructor
  · intro h e he hback
    obtain ⟨hmem, hlink⟩ := List.mem_filter.mp he
    have hled : ReflTransGen g.LinksTo e.target e.source :=
      (mem_reachable (isLink_iff.mp hlink).2).mp hback
    exact h e.source (.head' ⟨e, hmem, hlink, rfl, rfl⟩ hled)
  · intro h v hcircle
    obtain ⟨_, ⟨e, hmem, hlink, rfl, rfl⟩, hled⟩ := TransGen.head'_iff.mp hcircle
    exact h e (List.mem_filter.mpr ⟨hmem, hlink⟩)
      ((mem_reachable (isLink_iff.mp hlink).2).mpr hled)

instance (g : Graph) : Decidable g.Acyclic := decidable_of_iff _ acyclic_iff.symm

end Graph

namespace Trace

variable {g : Graph} {pick : Picker} {r : Request} {visited : List String} {calls : List Nat}
  {n : Node} {t : Trace}

/-! ## Complete graphs -/

/-- Wherever a request gets to, it can go on or leave the graph. Identities may repeat. -/
structure Complete (g : Graph) : Prop where
  allowed : (Audit.check g).hasCode "S010" = false
  linked : (Audit.check g).hasCode "S011" = false
  acyclic : g.Acyclic
  /-- Every inbound leads to something other than a routing node. -/
  straight : ∀ n ∈ g.nodes, n.kind = .inbound →
    ∃ e ∈ g.edges, e.source = n.id ∧ g.kind? e.target ≠ some .routing
  /-- Every routing node and every balancer leads somewhere. -/
  onward : ∀ n ∈ g.nodes, n.kind = .routing ∨ n.kind = .balancer → ∃ e ∈ g.edges, e.source = n.id

namespace Complete

/-- Every edge is a way out of the node it leaves. -/
theorem exists_exit (h : Complete g) {e : Edge} (he : e ∈ g.edges) :
    ∃ m, g.target? e = some m ∧ (e, m) ∈ exits g e.source := by
  have hlink : g.isLink e = true := Audit.isLink_of_not_s011 h.linked he
  obtain ⟨-, m, -, hm⟩ := Graph.isLink_iff_ends.mp hlink
  exact ⟨m, hm, mem_exits.mpr ⟨he, rfl, hlink, hm⟩⟩

/-- An inbound can always pass a request past the rules. -/
theorem exists_straight (h : Complete g) (hn : n ∈ g.nodes) (hkind : n.kind = .inbound) :
    ∃ x ∈ exits g n.id, leadsPastRules x = true := by
  obtain ⟨e, he, hsource, hpast⟩ := h.straight n hn hkind
  obtain ⟨m, hm, hexit⟩ := h.exists_exit he
  refine ⟨(e, m), hsource ▸ hexit, decide_eq_true fun hrouting => hpast ?_⟩
  exact Graph.kind?_eq_some.mpr ⟨m, hm, hrouting⟩

/-- A routing node and a balancer have a way out. -/
theorem exits_ne_nil (h : Complete g) (hn : n ∈ g.nodes)
    (hkind : n.kind = .routing ∨ n.kind = .balancer) : exits g n.id ≠ [] := by
  obtain ⟨e, he, hsource⟩ := h.onward n hn hkind
  obtain ⟨m, -, hexit⟩ := h.exists_exit he
  exact List.ne_nil_of_mem (hsource ▸ hexit)

/-- No way out leads to a device. -/
theorem next (h : Complete g) {x : Exit} (hx : x ∈ exits g n.id) : x.2.kind ≠ .device := by
  obtain ⟨he, -, hlink, ht⟩ := mem_exits.mp hx
  obtain ⟨s, -, hs, -⟩ := Graph.isLink_iff_ends.mp hlink
  have hmay : s.kind.mayLead x.2.kind = true := Audit.mayLead_of_not_s010 h.allowed he hs ht
  intro hdevice
  rw [hdevice] at hmay
  cases hkind : s.kind <;> simp [hkind, Kind.mayLead, Kind.targets] at hmay

/-- A node that keeps a request delivers it, unless it is a device. -/
theorem keeps [Rule.Patterns] (h : Complete g) (hn : n ∈ g.nodes) (hdevice : n.kind ≠ .device)
    {remark : Remark} {ending : Ending} (hkeep : decision g pick r calls n = .keep remark ending) :
    ending.outbound?.isSome = true := by
  simp only [decision] at hkeep
  split at hkeep
  case h_1 c hrole =>
    -- an inbound keeps nothing: there is a link past the rules
    obtain ⟨x, hx, hpast⟩ := h.exists_straight hn (congrArg Role.kind hrole)
    have hfound : ((exits g n.id).find? leadsPastRules).isSome = true :=
      List.find?_isSome.mpr ⟨x, hx, hpast⟩
    simp only [atInbound] at hkeep
    split at hkeep
    case isTrue hclosed => simp [List.isEmpty_iff.mp hclosed] at hx
    split at hkeep
    case h_1 => cases hkeep
    split at hkeep
    case h_1 => cases hkeep
    case h_2 hnone => simp [hnone] at hfound
  case h_2 c hrole =>
    have hexits := h.exits_ne_nil hn (.inl (congrArg Role.kind hrole))
    cases hl : exits g n.id with
    | nil => exact absurd hl hexits
    | cons x links => simp [hl, atRouting] at hkeep
  case h_3 c hrole =>
    have hexits := h.exits_ne_nil hn (.inr (congrArg Role.kind hrole))
    cases hl : exits g n.id with
    | nil => exact absurd hl hexits
    | cons x links =>
      simp only [hl, atBalancer] at hkeep
      split at hkeep <;> cases hkeep
  case h_4 c hrole =>
    simp only [atProxy] at hkeep
    split at hkeep
    case h_1 => cases hkeep
    case h_2 =>
      cases hkeep
      rfl
  case h_5 c hrole =>
    cases hkeep
    rfl
  case h_6 c hrole => exact absurd (congrArg Role.kind hrole) hdevice

end Complete

/-! ## Walks -/

/-- A way through a complete graph ends with a delivery if links lead from all nodes that
have been met to the node it begins at. -/
theorem Way.delivered [Rule.Patterns] (hway : Way g pick r visited calls n t) (h : Complete g)
    (hn : n ∈ g.nodes) (hdevice : n.kind ≠ .device)
    (hmet : ∀ v ∈ visited, TransGen g.LinksTo v n.id) : t.success = true := by
  induction hway with
  | again hvisited => exact absurd (hmet _ hvisited) (h.acyclic _)
  | kept _ hkeep => exact h.keeps hn hdevice hkeep
  | @passed visited calls n remark e next calls' onward _ hpass _ ih =>
    have hexit := (decision_pass hpass).exit
    obtain ⟨hmem, hsource, hlink, ht⟩ := mem_exits.mp hexit
    have hstep : g.LinksTo n.id next.id := ⟨e, hmem, hlink, hsource, (Graph.node?_id ht).symm⟩
    refine ih (Graph.node?_mem ht) (h.next hexit) ?_
    intro v hv
    rcases List.mem_cons.mp hv with rfl | hv
    · exact .single hstep
    · exact (hmet v hv).tail hstep

/-- A complete graph delivers every request that names one of its inbounds. -/
theorem run_complete [Rule.Patterns] (h : Complete g) (pick : Picker) (calls : List Nat)
    (hr : ∃ n ∈ g.nodes, ∃ c, n.inbound? = some c ∧ c.tag = r.inboundTag) :
    (run g pick calls r).success = true := by
  obtain ⟨m, hm, c, hc, htag⟩ := hr
  cases hentrance : entrance? g r with
  | none => exact absurd htag (entrance?_eq_none.mp hentrance m hm c hc)
  | some n =>
    have hn : n ∈ g.nodes := List.mem_of_find?_eq_some hentrance
    have hinbound : n.kind = .inbound := by
      have hfound := List.find?_some hentrance
      simp only [Option.any_eq_true] at hfound
      obtain ⟨d, hd, -⟩ := hfound
      exact Node.kind_of_inbound? hd
    exact (run_way hentrance).delivered h hn (by simp [hinbound]) (by simp)

/-- A rule that leads to a balancer, which spreads requests over an outbound and a second
server. -/
def spread : Graph where
  nodes := [
    ⟨"laptop", .origin, .device ⟨"Laptop", .socks⟩, none⟩,
    ⟨"in", .origin, .inbound ⟨"office", .socks, "", 1080, none, [], none, none⟩, some "near"⟩,
    ⟨"first", .origin, .routing ⟨"first", { Predicates.none with domain := ["a.example"] }⟩,
      some "near"⟩,
    ⟨"then", .origin, .routing ⟨"then", .none⟩, some "near"⟩,
    ⟨"pool", .origin, .balancer ⟨"pool", .random, []⟩, some "near"⟩,
    ⟨"direct", .origin, .terminal ⟨"direct", .freedom⟩, some "near"⟩,
    ⟨"out", .origin, .proxy ⟨"out", .socks, "192.0.2.2", 1080, none, none, none, none⟩,
      some "near"⟩,
    ⟨"far", .origin, .inbound ⟨"far", .socks, "", 1080, none, [], none, none⟩, some "far"⟩,
    ⟨"exit", .origin, .terminal ⟨"exit", .freedom⟩, some "far"⟩]
  edges := [
    ⟨"a", "laptop", "in", .plain, none⟩, ⟨"b", "in", "first", .conditional, none⟩,
    ⟨"c", "in", "direct", .plain, none⟩, ⟨"d", "first", "then", .plain, none⟩,
    ⟨"e", "then", "pool", .plain, none⟩, ⟨"f", "pool", "direct", .plain, none⟩,
    ⟨"g", "pool", "out", .plain, none⟩, ⟨"h", "out", "far", .plain, none⟩,
    ⟨"i", "far", "exit", .plain, none⟩]

attribute [local instance] Rule.Patterns.empty

theorem run_complete_spread :
    Complete spread ∧
      (run spread (listPicker [7]) [] ⟨"www.a.example", "tcp", 443, "office"⟩).edgeIds =
        ["b", "d", "e", "g", "h", "i"] ∧
      (run spread (listPicker [7]) [] ⟨"www.a.example", "tcp", 443, "office"⟩).success = true := by
  have hcomplete : Complete spread := by
    constructor <;> decide +kernel
  refine ⟨hcomplete, by decide +kernel, run_complete hcomplete _ _ ?_⟩
  exact ⟨spread.nodes[1], by decide, _, rfl, rfl⟩

end Trace
end ProxyPlan
