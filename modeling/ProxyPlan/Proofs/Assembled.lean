/-
ProxyPlan.Proofs.Assembled — graphs that are put together from the entries of a
document.

In such a graph an edge leads from an inbound to a rule, from a rule to its
target, or from a balancer to an outbound that it picks (`Graph.Joined`).
Nothing leads from an inbound to a target, and a balancer leads to nothing that
its selector does not pick, so compiling adds neither rules nor selectors.

Every rule has a routing node of its own, with one target, and is entered over
edges that carry its number as their priority (`Graph.Ruled`). These numbers
have thirty-two bits. As long as they are enough, the rules come out in their
order; and in some order in any case, because the edges decide only in which
order routing nodes are looked at.
-/
import ProxyPlan.Import.Draft
import ProxyPlan.Proofs.Groups
import ProxyPlan.Proofs.Growth
import ProxyPlan.Proofs.RuleMeaning

namespace ProxyPlan

open Compile

/-! ## Edges between entries -/

/-- One node leads to another as entries of a document do. -/
def Leads (s t : Node) : Prop :=
  (s.kind = .inbound ∧ t.kind = .routing) ∨ (s.kind = .routing ∧ (target? t).isSome = true) ∨
    ∃ c, s.role = .balancer c ∧ Import.Draft.isPicked c.selector t = true

/-- Every edge joins two nodes as entries of a document are joined. -/
structure Graph.Joined (g : Graph) : Prop where
  ids : (g.nodes.map Placed.id).Nodup
  edges : ∀ e ∈ g.edges, ∃ s t, g.source? e = some s ∧ g.target? e = some t ∧ Leads s t

namespace Graph

variable {g : Graph}

theorem node?_grow_self {n : Node} {es : List Edge} (hn : n.id ∉ g.ids) :
    (g.grow [n] es).node? n.id = some n := by
  have hnone : g.nodes.find? (fun m => m.id == n.id) = none := by
    rw [← Option.not_isSome_iff_eq_none]
    exact fun h => hn (isSome_node?.mp h)
  rw [node?, grow, List.find?_append, hnone]
  simp

theorem ids_append_nodup {n : Node} (hids : (g.nodes.map Placed.id).Nodup)
    (hn : n.id ∉ g.ids) : ((g.nodes ++ [n]).map Placed.id).Nodup := by
  rw [List.map_append]
  refine List.nodup_append'.mpr ⟨hids, List.nodup_singleton _, ?_⟩
  intro id hid hself
  obtain rfl : id = n.id := by simpa using hself
  obtain ⟨m, hm, hmid⟩ := List.mem_map.mp hid
  exact hn (mem_ids.mpr ⟨m, hm, hmid⟩)

namespace Joined

theorem isLink (h : g.Joined) : ∀ e ∈ g.edges, g.isLink e = true := by
  intro e he
  obtain ⟨s, t, hs, ht, -⟩ := h.edges e he
  rw [Graph.isLink, hs, ht]
  rfl

theorem linked (h : g.Joined) : g.linked = g := linked_eq_self h.isLink

/-- What an edge that leaves a node leads to. -/
theorem leads (h : g.Joined) {n : Node} (hn : n ∈ g.nodes) {e : Edge} (he : e ∈ g.outgoing n.id) :
    ∃ t, g.target? e = some t ∧ Leads n t := by
  obtain ⟨he, hid, -⟩ := mem_outgoing.mp he
  obtain ⟨s, t, hs, ht, hleads⟩ := h.edges e he
  have hsn : some s = some n := by
    rw [← hs, source?, hid]
    exact node?_of_mem h.ids hn
  cases hsn
  exact ⟨t, ht, hleads⟩

theorem grow (h : g.Joined) {n : Node} {es : List Edge} (hn : n.id ∉ g.ids)
    (hes : ∀ e ∈ es, ∃ s t, (g.grow [n] es).source? e = some s ∧
      (g.grow [n] es).target? e = some t ∧ Leads s t) : (g.grow [n] es).Joined where
  ids := ids_append_nodup h.ids hn
  edges e he := by
    rcases List.mem_append.mp he with he | he
    · obtain ⟨s, t, hs, ht, hleads⟩ := h.edges e he
      obtain ⟨hsource, htarget⟩ := isLink_iff.mp (h.isLink e he)
      refine ⟨s, t, ?_, ?_, hleads⟩
      · rw [source?, node?_grow hsource]
        exact hs
      · rw [target?, node?_grow htarget]
        exact ht
    · exact hes e he

end Joined

end Graph

namespace Compile

variable {g : Graph}

/-- Inbounds lead to no target. -/
theorem directRules_eq_nil (h : g.Joined) : directRules g = [] := by
  refine List.flatMap_eq_nil_iff.mpr fun n hn => ?_
  cases hc : Node.inbound? n with
  | none => rfl
  | some c =>
    have htargets : targetsOf g n.id = [] := by
      refine List.filterMap_eq_nil_iff.mpr fun e he => ?_
      obtain ⟨t, ht, hleads⟩ := h.leads hn he
      have hkind := Node.kind_of_inbound? hc
      rcases hleads with ⟨-, hrouting⟩ | ⟨hk, -⟩ | ⟨b, hb, -⟩
      · obtain ⟨r, hr⟩ := Node.exists_routing? hrouting
        rw [ht, Option.bind_some, target?, Node.routing?_eq_some.mp hr]
      · rw [hkind] at hk
        cases hk
      · rw [Node.kind, hb] at hkind
        cases hkind
    simp [htargets]

/-- The balancer that declares no more than its node does. -/
def ownBalancer (c : Balancer) : Document.Balancer where
  tag := c.tag
  selector := declared c
  strategy := if c.strategy = .random then none else some c.strategy.name

/-- The balancer that a node declares. -/
def ownBalancer? (n : Node) : Option Document.Balancer :=
  match n.role with
  | .balancer c => some (ownBalancer c)
  | _ => none

/-- Trimmed selectors pick what the selectors pick. -/
theorem selectorMatches_declared (c : Balancer) (tag : String) :
    Rule.selectorMatches (declared c) tag = Rule.selectorMatches c.selector tag := by
  rw [Rule.selectorMatches, Rule.selectorMatches, declared, List.any_filterMap]
  refine congrArg (List.any c.selector) (funext fun s => ?_)
  cases hs : Text.nonBlank? s with
  | none => rfl
  | some start => simp [Text.nonBlank?_of_nonBlank? hs]

theorem foldl_cover_eq_self {selector tags : List String}
    (h : ∀ tag ∈ tags, Rule.selectorMatches selector tag = true) :
    tags.foldl cover selector = selector := by
  induction tags with
  | nil => rfl
  | cons tag rest ih =>
    rw [List.foldl_cons, cover, if_pos (h tag (by simp))]
    exact ih fun tag' h' => h tag' (by simp [h'])

/-- A balancer that leads to what it picks declares no more than that. -/
theorem balancer_eq (h : g.Joined) {n : Node} (hn : n ∈ g.nodes) {c : Balancer}
    (hc : n.role = .balancer c) : balancer g n.id c = ownBalancer c := by
  have hcover : ((targetsOf g n.id).filterMap Target.outbound?).foldl cover (declared c) =
      declared c := by
    refine foldl_cover_eq_self fun tag htag => ?_
    obtain ⟨target, htarget, htag⟩ := List.mem_filterMap.mp htag
    obtain ⟨e, he, htarget⟩ := List.mem_filterMap.mp htarget
    obtain ⟨t, ht, hleads⟩ := h.leads hn he
    rw [ht, Option.bind_some] at htarget
    cases target with
    | balancer tag => simp [Target.outbound?] at htag
    | outbound tag' =>
      obtain rfl : tag' = tag := by simpa [Target.outbound?] using htag
      rcases hleads with ⟨hk, -⟩ | ⟨hk, -⟩ | ⟨b, hb, hpicked⟩
      · rw [Node.kind, hc] at hk
        cases hk
      · rw [Node.kind, hc] at hk
        cases hk
      · obtain rfl : c = b := by
          rw [hc] at hb
          exact Role.balancer.inj hb
        rw [Import.Draft.isPicked, (target?_eq_outbound.mp htarget).2, Bool.and_eq_true] at hpicked
        rw [selectorMatches_declared]
        exact hpicked.2
  rw [balancer, hcover, ownBalancer]

theorem filterMap_balancerOf? (h : g.Joined) :
    g.nodes.filterMap (balancerOf? g) = g.nodes.filterMap ownBalancer? := by
  refine List.filterMap_congr fun n hn => ?_
  rw [balancerOf?, ownBalancer?]
  cases hrole : n.role with
  | balancer c => simp only [balancer_eq h hn hrole]
  | _ => rfl

/-! ## Rules in order -/

end Compile

/-- Every rule has a routing node of its own, entered over edges that carry its
number. -/
structure Graph.Ruled (g : Graph) (rs : List Document.Rule) : Prop where
  rules : (routingIds g).flatMap (rulesOf g) = rs
  entered : (∃ n ∈ g.nodes, n.kind = .inbound) →
    Order.distinct ((entries g).map Edge.target) = routingIds g
  ranked : rs.length ≤ 2 ^ 32 → ((entries g).Pairwise fun e e' => e.priority ≤ e'.priority) ∧
    ∀ e ∈ entries g, e.priority.toNat < rs.length

namespace Graph

variable {g : Graph} {rs : List Document.Rule}

/-- A graph without routing nodes has no rules. -/
theorem ruled_nil (h : ∀ n ∈ g.nodes, n.kind ≠ .routing) : g.Ruled [] := by
  have hids : routingIds g = [] := by
    refine List.eq_nil_iff_forall_not_mem.mpr fun id hid => ?_
    obtain ⟨n, hn, hk, -⟩ := mem_routingIds.mp hid
    exact h n hn hk
  have hentries : entries g = [] := by
    refine List.eq_nil_iff_forall_not_mem.mpr fun e he => ?_
    have hid := routingIds_of_entered (mem_entered.mpr ⟨e, he, rfl⟩)
    rw [hids] at hid
    cases hid
  constructor
  case rules => rw [hids, List.flatMap_nil]
  case entered => rw [hids, hentries]; exact fun _ => rfl
  case ranked => rw [hentries]; exact fun _ => ⟨.nil, by simp⟩

/-- The rules of the graph are those it has been made for, in some order. -/
theorem Ruled.perm (h : g.Ruled rs) (hjoined : g.Joined) : (Compile.rules g).Perm rs := by
  rw [Compile.rules, directRules_eq_nil hjoined, List.append_nil, routingRules_eq, ← h.rules]
  exact (routingOrder_perm hjoined.ids).flatMap_right _

/-- The rules of the graph are those it has been made for, unless there are more
than numbers for them. -/
theorem Ruled.eq (h : g.Ruled rs) (hjoined : g.Joined) (hfew : rs.length ≤ 2 ^ 32) :
    Compile.rules g = rs := by
  have hentered : Compile.entered g = routingIds g ∨ Compile.entered g = [] := by
    have hsorted : Compile.entered g = Order.distinct ((entries g).map Edge.target) :=
      congrArg (fun es : List Edge => Order.distinct (es.map Edge.target))
        (byPriority_eq_self (h.ranked hfew).1)
    rw [hsorted]
    by_cases hinbound : ∃ n ∈ g.nodes, n.kind = .inbound
    · exact .inl (h.entered hinbound)
    · have hnone : entries g = [] := by
        refine List.eq_nil_iff_forall_not_mem.mpr fun e he => hinbound ?_
        have hentry := (List.mem_filter.mp he).2
        simp only [isEntry, Bool.and_eq_true, decide_eq_true_eq] at hentry
        obtain ⟨n, hn, hk⟩ := kind?_eq_some.mp hentry.1
        exact ⟨n, node?_mem hn, hk⟩
      rw [hnone]
      exact .inr rfl
  rw [Compile.rules, directRules_eq_nil hjoined, List.append_nil, routingRules_eq,
    routingOrder_eq hjoined.ids hentered, h.rules]

/-! ## One more rule -/

theorem routingIds_grow {n : Node} {es : List Edge} {c : Routing} (hc : n.routing? = some c) :
    routingIds (g.grow [n] es) = routingIds g ++ [n.id] := by
  have hself : [n].filter (fun n => (Node.routing? n).isSome) = [n] := by
    simp [hc]
  rw [routingIds, grow, List.filter_append, hself, List.map_append]
  rfl

/-- The edges of a new node that is a rule: inbounds lead to it, and it leads to
a node that is there. -/
structure RuleEdges (g : Graph) (n t : Node) (into : List Edge) (out : Edge) : Prop where
  fresh : n.id ∉ g.ids
  routing : n.kind = .routing
  entries : ∀ e ∈ into, g.kind? e.source = some .inbound ∧ e.target = n.id
  exit : out.source = n.id
  target : g.target? out = some t

namespace RuleEdges

variable {n t : Node} {into : List Edge} {out : Edge} (h : g.RuleEdges n t into out)

include h

theorem source_mem {e : Edge} (he : e ∈ into) : e.source ∈ g.ids := by
  obtain ⟨m, hm, -⟩ := kind?_eq_some.mp (h.entries e he).1
  exact isSome_node?.mp (by rw [hm]; rfl)

theorem target_mem : out.target ∈ g.ids := by
  have htarget : g.node? out.target = some t := h.target
  exact isSome_node?.mp (by rw [htarget]; rfl)

theorem target?_grow : (g.grow [n] (into ++ [out])).target? out = some t := by
  rw [target?, node?_grow h.target_mem]
  exact h.target

theorem kind?_self : (g.grow [n] (into ++ [out])).kind? n.id = some .routing :=
  kind?_eq_some.mpr ⟨n, node?_grow_self h.fresh, h.routing⟩

/-- A node that is there is not the new one. -/
theorem beq_fresh {id : String} (hid : id ∈ g.ids) : (id == n.id) = false := by
  rw [beq_eq_false_iff_ne]
  rintro rfl
  exact h.fresh hid

/-- The edges join what the entries of a document join. -/
theorem leads (ht : (Compile.target? t).isSome = true) : ∀ e ∈ into ++ [out],
    ∃ s s', (g.grow [n] (into ++ [out])).source? e = some s ∧
      (g.grow [n] (into ++ [out])).target? e = some s' ∧ Leads s s' := by
  intro e he
  rw [source?]
  rcases List.mem_append.mp he with he | he
  · obtain ⟨s, hs, hkind⟩ := kind?_eq_some.mp (h.entries e he).1
    rw [node?_grow (h.source_mem he), hs, target?, (h.entries e he).2]
    exact ⟨s, n, rfl, node?_grow_self h.fresh, .inl ⟨hkind, h.routing⟩⟩
  · obtain rfl := List.mem_singleton.mp he
    rw [h.exit, node?_grow_self h.fresh]
    exact ⟨n, t, rfl, h.target?_grow, .inr (.inl ⟨h.routing, ht⟩)⟩

/-- The edges that lead to the node are the new entries. -/
theorem entries_grow (hjoined : g.Joined) :
    Compile.entries (g.grow [n] (into ++ [out])) = Compile.entries g ++ into := by
  have hentry : ∀ e ∈ into, isEntry (g.grow [n] (into ++ [out])) e = true := by
    intro e he
    rw [isEntry, kind?_grow (h.source_mem he), (h.entries e he).1, (h.entries e he).2,
      h.kind?_self]
    rfl
  have hexit : isEntry (g.grow [n] (into ++ [out])) out = false := by
    rw [isEntry, h.exit, h.kind?_self]
    rfl
  rw [Compile.entries_grow hjoined.isLink, List.filter_append, List.filter_eq_self.mpr hentry]
  simp [hexit]

/-- The only link of the node is the one that leaves it. -/
theorem outgoing_self (hlink : ∀ e ∈ g.edges, g.isLink e = true) :
    (g.grow [n] (into ++ [out])).outgoing n.id = [out] := by
  have hold : g.edges.filter (fun e => e.source == n.id &&
      (g.grow [n] (into ++ [out])).isLink e) = [] := by
    refine List.filter_eq_nil_iff.mpr fun e he => ?_
    simp [h.beq_fresh (isLink_iff.mp (hlink e he)).1]
  have hentries : into.filter (fun e => e.source == n.id &&
      (g.grow [n] (into ++ [out])).isLink e) = [] := by
    refine List.filter_eq_nil_iff.mpr fun e he => ?_
    simp [h.beq_fresh (h.source_mem he)]
  have hself : (g.grow [n] (into ++ [out])).isLink out = true := by
    rw [isLink, h.target?_grow, source?, h.exit, node?_grow_self h.fresh]
    rfl
  have hall : (g.grow [n] (into ++ [out])).linksThat (fun e => e.source == n.id) = [out] := by
    show (g.edges ++ (into ++ [out])).filter _ = _
    rw [List.filter_append, List.filter_append, hold, hentries]
    simp [h.exit, hself]
  rw [outgoing, hall]
  rfl

/-- The rules of other routing nodes stay as they are. -/
theorem rulesOf_old (hjoined : g.Joined) {id : String} (hid : id ∈ routingIds g) :
    rulesOf (g.grow [n] (into ++ [out])) id = rulesOf g id := by
  obtain ⟨m, hm, hk, rfl⟩ := mem_routingIds.mp hid
  have hmid : m.id ∈ g.ids := mem_ids.mpr ⟨m, hm, rfl⟩
  refine rulesOf_grow (ids_append_nodup hjoined.ids h.fresh) hjoined.isLink hmid fun e he heq => ?_
  rcases List.mem_append.mp he with he | he
  · -- entries leave inbounds
    obtain ⟨k, hkind, hinbound⟩ := kind?_eq_some.mp (h.entries e he).1
    rw [heq, node?_of_mem hjoined.ids hm] at hkind
    cases hkind
    rw [hk] at hinbound
    cases hinbound
  · obtain rfl := List.mem_singleton.mp he
    rw [h.exit] at heq
    exact h.fresh (heq ▸ hmid)

/-- The new node has one rule. -/
theorem rulesOf_self (hjoined : g.Joined) {c : Routing} {goal : Target}
    (hc : n.routing? = some c) (hgoal : Compile.target? t = some goal) :
    rulesOf (g.grow [n] (into ++ [out])) n.id = [rule c.predicates goal] := by
  have htargets : targetsOf (g.grow [n] (into ++ [out])) n.id = [goal] := by
    rw [targetsOf, h.outgoing_self hjoined.isLink]
    simp [h.target?_grow, hgoal]
  rw [rulesOf, routingOf?_eq (ids_append_nodup hjoined.ids h.fresh), node?_grow_self h.fresh,
    Option.bind_some, hc, htargets]
  rfl

/-- The node is entered last, if there is an inbound that leads to it. -/
theorem distinct_entries (hjoined : g.Joined) (hsome : into ≠ []) :
    Order.distinct ((Compile.entries (g.grow [n] (into ++ [out]))).map Edge.target) =
      Order.distinct ((Compile.entries g).map Edge.target) ++ [n.id] := by
  have hfresh : n.id ∉ (Compile.entries g).map Edge.target := by
    intro hid
    obtain ⟨e, he, htarget⟩ := List.mem_map.mp hid
    have hlink := hjoined.isLink e (List.mem_filter.mp he).1
    exact h.fresh (htarget ▸ (isLink_iff.mp hlink).2)
  rw [h.entries_grow hjoined, List.map_append]
  refine Order.distinct_append_same hfresh (by simp [hsome]) fun id hid => ?_
  obtain ⟨e, he, rfl⟩ := List.mem_map.mp hid
  exact (h.entries e he).2

end RuleEdges

/-- A routing node that inbounds lead to, if there are any, and that leads to a
target adds the rule of its predicates and of this target. -/
theorem Ruled.grow (h : g.Ruled rs) (hjoined : g.Joined) {n t : Node} {into : List Edge}
    {out : Edge} (hnew : g.RuleEdges n t into out) {c : Routing} {goal : Target}
    (hc : n.routing? = some c) (hgoal : Compile.target? t = some goal)
    (hsome : (∃ m ∈ g.nodes, m.kind = .inbound) → into ≠ [])
    (hrank : rs.length < 2 ^ 32 → ∀ e ∈ into, e.priority.toNat = rs.length) :
    (g.grow [n] (into ++ [out])).Ruled (rs ++ [rule c.predicates goal]) := by
  constructor
  case rules =>
    rw [routingIds_grow hc, List.flatMap_append,
      List.flatMap_congr fun id hid => hnew.rulesOf_old hjoined hid, h.rules,
      List.flatMap_singleton, hnew.rulesOf_self hjoined hc hgoal]
  case entered =>
    rintro ⟨m, hm, hk⟩
    have hthere : ∃ m ∈ g.nodes, m.kind = .inbound := by
      refine ⟨m, (List.mem_append.mp hm).resolve_right fun hm => ?_, hk⟩
      obtain rfl := List.mem_singleton.mp hm
      rw [hnew.routing] at hk
      cases hk
    rw [hnew.distinct_entries hjoined (hsome hthere), h.entered hthere, routingIds_grow hc]
  case ranked =>
    intro hfew
    rw [List.length_append, List.length_singleton] at hfew ⊢
    obtain ⟨hsorted, hbelow⟩ := h.ranked (by omega)
    have hranked : ∀ e ∈ into, e.priority.toNat = rs.length := hrank (by omega)
    rw [hnew.entries_grow hjoined]
    constructor
    · refine List.pairwise_append.mpr ⟨hsorted, ?_, ?_⟩
      · refine List.pairwise_of_forall_mem_list fun e he e' he' => ?_
        rw [UInt32.le_iff_toNat_le, hranked e he, hranked e' he']
      · intro e he e' he'
        rw [UInt32.le_iff_toNat_le, hranked e' he']
        exact Nat.le_of_lt (hbelow e he)
    · intro e he
      rcases List.mem_append.mp he with he | he
      · exact Nat.lt_succ_of_lt (hbelow e he)
      · rw [hranked e he]
        exact Nat.lt_succ_self _

end Graph
end ProxyPlan
