/-
ProxyPlan.Proofs.RuleListing — which links become rules, and in which order.

A link becomes a rule if it leads from a routing node or an inbound to an outbound or a
balancer (`becomesRule`). The rules are made in two passes over different lists: first the
routing nodes, those that inbounds lead to before the others, then the inbounds, and for each
node its links in the order in which they are tried. If no two nodes have the same identity,
nothing is lost or made twice on the way: the rules are those of a listing of exactly the links
that become rules, edges that are equal told apart by their positions (`rules_listing`).

The order of the listing is given by keys. An edge is ranked by its priority, and by its
position among edges of equal priority (`rank`); this is what stable sorting comes to
(`ranked_pairwise`). A routing node that is entered stands at the best rank of its entries
(`entryRank`). It is listed where the first of its entries stands among all entries, so taking
the first occurrences of sorted targets sorts them by that best rank (`entered_pairwise`).
-/
import Mathlib.Data.List.MinMax
import Mathlib.Data.Prod.Lex
import ProxyPlan.Proofs.Growth
import ProxyPlan.Proofs.RuleMeaning

namespace ProxyPlan.Compile

variable {g : Graph} {id : String}

/-! ## Edges and their positions -/

/-- Edges are ranked by priority, those of one priority by position. -/
def rank (x : Edge × Nat) : ℕ ×ₗ ℕ := toLex (x.1.priority.toNat, x.2)

instance : Std.Total fun x y : Edge × Nat => x.1.priority ≤ y.1.priority :=
  ⟨fun x y => UInt32.le_total x.1.priority y.1.priority⟩

instance : IsTrans (Edge × Nat) fun x y => x.1.priority ≤ y.1.priority :=
  ⟨fun _ _ _ => UInt32.le_trans⟩

/-- The edges that pass a test with their positions, best rank first. -/
def ranked (g : Graph) (test : Edge → Bool) : List (Edge × Nat) :=
  Order.sort (fun x y => x.1.priority ≤ y.1.priority) (g.edges.zipIdx.filter fun x => test x.1)

theorem positions_pairwise (edges : List Edge) :
    edges.zipIdx.Pairwise fun x y => x.2 < y.2 := by
  have hlt : (edges.zipIdx.map Prod.snd).Pairwise (· < ·) := by
    rw [List.zipIdx_map_snd]
    exact List.pairwise_lt_range' 1
  exact List.pairwise_map.mp hlt

theorem positions_nodup (edges : List Edge) : edges.zipIdx.Nodup := by
  refine (positions_pairwise edges).imp ?_
  rintro x y hlt rfl
  exact Nat.lt_irrefl _ hlt

theorem mem_ranked {test : Edge → Bool} {x : Edge × Nat} :
    x ∈ ranked g test ↔ x ∈ g.edges.zipIdx ∧ test x.1 = true := by
  simp [ranked, Order.sort_eq_insertionSort]

theorem ranked_pairwise (g : Graph) (test : Edge → Bool) :
    (ranked g test).Pairwise fun x y => rank x < rank y := by
  have hpositions : (g.edges.zipIdx.filter fun x => test x.1).Pairwise fun x y => x.2 < y.2 :=
    (positions_pairwise g.edges).filter _
  rw [ranked, Order.sort_eq_insertionSort]
  refine (Order.insertionSort_stable hpositions).imp ?_
  rintro x y ⟨hle, hstable⟩
  simp only [UInt32.le_iff_toNat_le] at hle hstable
  refine Prod.Lex.toLex_lt_toLex'.mpr ⟨hle, ?_⟩
  intro hsame
  exact hstable (Nat.le_of_eq hsame.symm)

theorem map_ranked (g : Graph) (test : Edge → Bool) :
    (ranked g test).map Prod.fst = Graph.byPriority (g.edges.filter test) := by
  have hedges : (g.edges.zipIdx.filter fun x => test x.1).map Prod.fst = g.edges.filter test := by
    have hmap := List.filter_map (f := Prod.fst) (p := test) (l := g.edges.zipIdx)
    rw [List.zipIdx_map_fst] at hmap
    exact hmap.symm
  rw [Graph.byPriority_eq, ← hedges, ranked, Order.sort_eq_insertionSort]
  exact List.map_insertionSort _ _ Prod.fst _ fun _ _ _ _ => .rfl

/-! ## Links that become rules -/

/-- The edge leads from a routing node or an inbound to an outbound or a balancer. -/
def becomesRule (g : Graph) (e : Edge) : Bool :=
  (g.source? e).any (fun n => n.kind = .routing || n.kind = .inbound) &&
    (g.target? e).any fun n => n.kind.isOutbound || n.kind = .balancer

/-- What the rules of a node ask for: a routing node has predicates, and an inbound asks for
what comes in there. -/
def predicates? (n : Node) : Option Predicates :=
  match n.role with
  | .routing c => some c.predicates
  | .inbound c => some (.ofInbound c.tag)
  | .device _ | .balancer _ | .terminal _ | .proxy _ => none

/-- The rule of an edge: it sends what its source asks for to its target. -/
def ruleOf? (g : Graph) (e : Edge) : Option Document.Rule :=
  (g.source? e).bind fun s => (predicates? s).bind fun p =>
    ((g.target? e).bind target?).map (rule p)

theorem predicates?_isSome (n : Node) :
    (predicates? n).isSome = (n.kind = .routing || n.kind = .inbound) := by
  obtain ⟨id, position, role, server⟩ := n
  cases role <;> rfl

theorem ruleOf?_isSome (g : Graph) (e : Edge) : (ruleOf? g e).isSome = becomesRule g e := by
  unfold ruleOf? becomesRule
  cases g.source? e with
  | none => rfl
  | some s =>
    cases g.target? e with
    | none => cases predicates? s <;> simp
    | some t =>
      simp only [Option.bind_some, Option.any_some]
      rw [← predicates?_isSome, Bool.or_comm (t.kind.isOutbound), ← target?_isSome]
      cases predicates? s <;> simp

theorem isLink_of_becomesRule {e : Edge} (h : becomesRule g e = true) : g.isLink e = true := by
  unfold becomesRule at h
  unfold Graph.isLink
  cases hs : g.source? e <;> cases ht : g.target? e <;> simp_all

/-! ## The rules of one node -/

/-- The edges of a node that become rules, best rank first. -/
def ruleLinks (g : Graph) (id : String) : List (Edge × Nat) :=
  ranked g fun e => e.source == id && becomesRule g e

theorem mem_ruleLinks {x : Edge × Nat} :
    x ∈ ruleLinks g id ↔ x ∈ g.edges.zipIdx ∧ x.1.source = id ∧ becomesRule g x.1 = true := by
  simp [ruleLinks, mem_ranked]

theorem map_ruleLinks (g : Graph) (id : String) :
    (ruleLinks g id).map Prod.fst = (g.outgoing id).filter (becomesRule g) := by
  have htest : ∀ e, (e.source == id && becomesRule g e) =
      (becomesRule g e && (e.source == id && g.isLink e)) := by
    intro e
    cases he : becomesRule g e with
    | false => simp
    | true => simp [isLink_of_becomesRule he]
  rw [ruleLinks, map_ranked, Graph.outgoing, Graph.linksThat, Graph.filter_byPriority,
    List.filter_filter]
  simp only [htest]

/-- The rules of a node are those of its links, in their order. -/
theorem rules_ruleLinks {n : Node} {p : Predicates} (hn : g.node? id = some n)
    (hp : predicates? n = some p) : ((targetsOf g id).map (rule p)).map some =
      (ruleLinks g id).map fun x => ruleOf? g x.1 := by
  have hrules : (targetsOf g id).map (rule p) = (g.outgoing id).filterMap (ruleOf? g) := by
    rw [targetsOf, List.map_filterMap]
    refine List.filterMap_congr fun e he => ?_
    obtain ⟨-, hsource, -⟩ := Graph.mem_outgoing.mp he
    simp [ruleOf?, Graph.source?, hsource, hn, hp]
  rw [hrules, Order.map_some_filterMap]
  simp only [ruleOf?_isSome]
  rw [← map_ruleLinks, List.map_map]
  rfl

/-! ## The nodes that rules are made of -/

/-- The identities of the inbounds, in the order of the nodes. -/
def inboundIds (g : Graph) : List String :=
  (g.nodes.filter fun n => (Node.inbound? n).isSome).map Placed.id

/-- The identities of the nodes that rules are made of, in the order of their rules. -/
def ruleSources (g : Graph) : List String := routingOrder g ++ inboundIds g

theorem mem_routingOrder (hids : (g.nodes.map Placed.id).Nodup) :
    id ∈ routingOrder g ↔ g.kind? id = some .routing := by
  rw [(routingOrder_perm hids).mem_iff, mem_routingIds, Graph.kind?_eq_some]
  constructor
  · rintro ⟨n, hn, hk, rfl⟩
    exact ⟨n, Graph.node?_of_mem hids hn, hk⟩
  · rintro ⟨n, hn, hk⟩
    exact ⟨n, Graph.node?_mem hn, hk, Graph.node?_id hn⟩

theorem mem_inboundIds (hids : (g.nodes.map Placed.id).Nodup) :
    id ∈ inboundIds g ↔ g.kind? id = some .inbound := by
  rw [inboundIds, List.mem_map, Graph.kind?_eq_some]
  constructor
  · rintro ⟨n, hn, rfl⟩
    obtain ⟨hmem, hin⟩ := List.mem_filter.mp hn
    obtain ⟨c, hc⟩ := Option.isSome_iff_exists.mp hin
    exact ⟨n, Graph.node?_of_mem hids hmem, Node.kind_of_inbound? hc⟩
  · rintro ⟨n, hn, hk⟩
    refine ⟨n, List.mem_filter.mpr ⟨Graph.node?_mem hn, ?_⟩, Graph.node?_id hn⟩
    obtain ⟨i, position, role, server⟩ := n
    cases role <;> first | rfl | cases hk

theorem mem_ruleSources_of_becomesRule (hids : (g.nodes.map Placed.id).Nodup) {e : Edge}
    (h : becomesRule g e = true) : e.source ∈ ruleSources g := by
  rw [ruleSources, List.mem_append, mem_routingOrder hids, mem_inboundIds hids, Graph.kind?]
  unfold becomesRule Graph.source? at h
  cases hs : g.node? e.source with
  | none => simp [hs] at h
  | some n => simp_all

/-- The rules are those of the nodes that they are made of, node by node. -/
theorem map_some_rules (hids : (g.nodes.map Placed.id).Nodup) :
    (rules g).map some =
      ((ruleSources g).flatMap (ruleLinks g)).map fun x => ruleOf? g x.1 := by
  have hrouting : (routingRules g).map some =
      ((routingOrder g).flatMap (ruleLinks g)).map fun x => ruleOf? g x.1 := by
    rw [routingRules_eq, List.map_flatMap, List.map_flatMap]
    refine List.flatMap_congr fun id hid => ?_
    obtain ⟨n, hn, hk⟩ := Graph.kind?_eq_some.mp ((mem_routingOrder hids).mp hid)
    obtain ⟨c, hc⟩ := Node.exists_routing? hk
    have hp : predicates? n = some c.predicates := by
      rw [predicates?, Node.routing?_eq_some.mp hc]
    rw [← rules_ruleLinks hn hp, rulesOf, routingOf?_eq hids, hn, Option.bind_some, hc]
  have hdirect : (directRules g).map some =
      ((inboundIds g).flatMap (ruleLinks g)).map fun x => ruleOf? g x.1 := by
    have hinbounds : directRules g =
        (g.nodes.filter fun n => (Node.inbound? n).isSome).flatMap (directRulesOf g) := by
      refine (Order.flatMap_filter fun n _ hn => ?_).symm
      have hnone : Node.inbound? n = none := by simpa using hn
      simp only [hnone]
    rw [hinbounds, inboundIds, List.flatMap_map, List.map_flatMap, List.map_flatMap]
    refine List.flatMap_congr fun n hn => ?_
    obtain ⟨hmem, hin⟩ := List.mem_filter.mp hn
    obtain ⟨c, hc⟩ := Option.isSome_iff_exists.mp hin
    have hp : predicates? n = some (.ofInbound c.tag) := by
      rw [predicates?, Node.inbound?_eq_some.mp hc]
    rw [← rules_ruleLinks (Graph.node?_of_mem hids hmem) hp, directRulesOf, hc]
  rw [rules, ruleSources, List.map_append, hrouting, hdirect, List.flatMap_append, List.map_append]

/-! ## Their order -/

/-- The best rank of an edge that enters a routing node from an inbound; there may be none. -/
def entryRank (g : Graph) (id : String) : WithTop (ℕ ×ₗ ℕ) :=
  ((g.edges.zipIdx.filter fun x => isEntry g x.1 && x.1.target == id).map rank).minimum

/-- Where the rules of a node stand: those of an inbound behind those of routing nodes, those
of an entered routing node by its best entry and before those of others, and else in the order
of the nodes. -/
def standing (g : Graph) (id : String) : Bool ×ₗ WithTop (ℕ ×ₗ ℕ) ×ₗ ℕ :=
  toLex (decide (g.kind? id = some .inbound),
    toLex (entryRank g id, (g.nodes.map Placed.id).idxOf id))

/-- Where the rule of an edge stands: with its node, and there by rank. -/
def place (g : Graph) (x : Edge × Nat) : (Bool ×ₗ WithTop (ℕ ×ₗ ℕ) ×ₗ ℕ) ×ₗ (ℕ ×ₗ ℕ) :=
  toLex (standing g x.1.source, rank x)

theorem entryRank_eq_top : entryRank g id = ⊤ ↔ id ∉ entered g := by
  rw [entryRank, List.minimum_eq_top, List.map_eq_nil_iff, List.filter_eq_nil_iff, mem_entered]
  constructor
  · rintro hnone ⟨e, he, rfl⟩
    obtain ⟨hmem, hentry⟩ := List.mem_filter.mp he
    obtain ⟨k, hk, rfl⟩ := List.mem_iff_getElem.mp hmem
    refine hnone (g.edges[k], k) ?_ (by simp [hentry])
    exact List.mem_zipIdx_iff_getElem?.mpr (List.getElem?_eq_getElem hk)
  · intro hnone x hx htest
    simp only [Bool.and_eq_true, beq_iff_eq] at htest
    obtain ⟨hentry, htarget⟩ := htest
    exact hnone ⟨x.1, List.mem_filter.mpr ⟨List.fst_mem_of_mem_zipIdx hx, hentry⟩, htarget⟩

theorem entryRank_le {x : Edge × Nat} (hx : x ∈ ranked g (isEntry g)) :
    entryRank g x.1.target ≤ rank x := by
  obtain ⟨hmem, hentry⟩ := mem_ranked.mp hx
  refine List.minimum_le_of_mem' (List.mem_map_of_mem (List.mem_filter.mpr ⟨hmem, ?_⟩))
  simp [hentry]

theorem exists_entryRank (h : id ∈ entered g) :
    ∃ x ∈ ranked g (isEntry g), x.1.target = id ∧ entryRank g id = rank x := by
  obtain ⟨r, hr⟩ := WithTop.ne_top_iff_exists.mp (mt entryRank_eq_top.mp (not_not.mpr h))
  obtain ⟨x, hx, rfl⟩ := List.mem_map.mp (List.minimum_mem hr.symm)
  obtain ⟨hmem, htest⟩ := List.mem_filter.mp hx
  simp only [Bool.and_eq_true, beq_iff_eq] at htest
  exact ⟨x, mem_ranked.mpr ⟨hmem, htest.1⟩, htest.2, hr.symm⟩

/-- Entered routing nodes stand in the order of their best entries. -/
theorem entered_pairwise (g : Graph) :
    (entered g).Pairwise fun a b => entryRank g a < entryRank g b := by
  have hentered : entered g =
      Order.firsts [] ((ranked g (isEntry g)).map fun x => x.1.target) := by
    rw [entered, ← map_ranked, List.map_map]
    rfl
  have hfirsts := Order.firsts_map_pairwise (ranked_pairwise g (isEntry g))
    (fun x : Edge × Nat => x.1.target) []
  rw [← hentered] at hfirsts
  refine hfirsts.imp_of_mem ?_
  rintro a b - hb ⟨x, hx, rfl, hbefore⟩
  obtain ⟨y, hy, hyb, hrank⟩ := exists_entryRank hb
  rw [hrank]
  exact (entryRank_le hx).trans_lt (WithTop.coe_lt_coe.mpr (hbefore y hy hyb))

/-- The members of a list that do not repeat stand in the order of their positions. -/
theorem idxOf_pairwise {ids : List String} (h : ids.Nodup) :
    ids.Pairwise fun a b => ids.idxOf a < ids.idxOf b := by
  rw [List.pairwise_iff_getElem]
  intro i j hi hj hij
  rwa [h.idxOf_getElem i hi, h.idxOf_getElem j hj]

/-- Nodes that are not entered stand in their order. -/
theorem standing_pairwise {ids : List String} (hids : (g.nodes.map Placed.id).Nodup)
    (hsub : ids.Sublist (g.nodes.map Placed.id)) {k : Kind}
    (hkind : ∀ id ∈ ids, g.kind? id = some k) (hentered : ∀ id ∈ ids, id ∉ entered g) :
    ids.Pairwise fun a b => standing g a < standing g b := by
  refine ((idxOf_pairwise hids).sublist hsub).imp_of_mem ?_
  intro a b ha hb hlt
  refine Prod.Lex.toLex_lt_toLex.mpr (.inr ⟨by rw [hkind a ha, hkind b hb], ?_⟩)
  refine Prod.Lex.toLex_lt_toLex.mpr (.inr ⟨?_, hlt⟩)
  rw [entryRank_eq_top.mpr (hentered a ha), entryRank_eq_top.mpr (hentered b hb)]

theorem routingOrder_pairwise (hids : (g.nodes.map Placed.id).Nodup) :
    (routingOrder g).Pairwise fun a b => standing g a < standing g b := by
  have hkind : ∀ id ∈ routingOrder g, g.kind? id = some .routing := by
    intro id hid
    exact (mem_routingOrder hids).mp hid
  have hbest : ∀ a ∈ routingOrder g, ∀ b ∈ routingOrder g, entryRank g a < entryRank g b →
      standing g a < standing g b := by
    intro a ha b hb hlt
    refine Prod.Lex.toLex_lt_toLex.mpr (.inr ⟨by rw [hkind a ha, hkind b hb], ?_⟩)
    exact Prod.Lex.toLex_lt_toLex.mpr (.inl hlt)
  have hlast : ∀ id ∈ Order.firsts (entered g) (routingIds g), id ∉ entered g := by
    intro id hid
    exact (Order.mem_firsts.mp hid).2
  refine List.pairwise_append.mpr ⟨?_, ?_, ?_⟩
  · refine (entered_pairwise g).imp_of_mem ?_
    intro a b ha hb hlt
    exact hbest a (List.mem_append_left _ ha) b (List.mem_append_left _ hb) hlt
  · refine standing_pairwise hids ?_ (fun id hid => hkind id (List.mem_append_right _ hid)) hlast
    exact (Order.firsts_sublist _ _).trans (List.filter_sublist.map Placed.id)
  · intro a ha b hb
    refine hbest a (List.mem_append_left _ ha) b (List.mem_append_right _ hb) ?_
    rw [entryRank_eq_top.mpr (hlast b hb), lt_top_iff_ne_top, ne_eq, entryRank_eq_top]
    exact not_not.mpr ha

theorem ruleSources_pairwise (hids : (g.nodes.map Placed.id).Nodup) :
    (ruleSources g).Pairwise fun a b => standing g a < standing g b := by
  have hinbound : ∀ id ∈ inboundIds g, g.kind? id = some .inbound := by
    intro id hid
    exact (mem_inboundIds hids).mp hid
  refine List.pairwise_append.mpr ⟨routingOrder_pairwise hids, ?_, ?_⟩
  · refine standing_pairwise hids (List.filter_sublist.map Placed.id) hinbound ?_
    intro id hid hentered
    -- what is entered is a routing node
    have hrouting := (mem_routingOrder hids).mp (List.mem_append_left _ hentered)
    rw [hinbound id hid] at hrouting
    cases hrouting
  · intro a ha b hb
    refine Prod.Lex.toLex_lt_toLex.mpr (.inl ?_)
    rw [(mem_routingOrder hids).mp ha, hinbound b hb]
    exact Bool.false_lt_true

/-! ## All rules -/

/-- If no two nodes have the same identity, there is one way to list the edges that become
rules, each once, so that those of routing nodes come before those of inbounds; entered routing
nodes come first and by the best rank of their entries, then the other ones and then the
inbounds, each in the order of the nodes; and the edges of one node come by rank. The rules are
those of the edges in this list, one for each and in this order. -/
theorem rules_listing (hids : (g.nodes.map Placed.id).Nodup) :
    ∃! listing : List (Edge × Nat),
      listing.Perm (g.edges.zipIdx.filter fun x => becomesRule g x.1) ∧
      listing.Pairwise (fun x y => place g x < place g y) ∧
      (rules g).map some = listing.map fun x => ruleOf? g x.1 := by
  have hordered : ((ruleSources g).flatMap (ruleLinks g)).Pairwise fun x y =>
      place g x < place g y := by
    refine List.pairwise_flatMap.mpr ⟨?_, ?_⟩
    · intro id hid
      refine (ranked_pairwise g _).imp_of_mem ?_
      intro x y hx hy hlt
      obtain ⟨-, hxid, -⟩ := mem_ruleLinks.mp hx
      obtain ⟨-, hyid, -⟩ := mem_ruleLinks.mp hy
      exact Prod.Lex.toLex_lt_toLex.mpr (.inr ⟨by rw [hxid, hyid], hlt⟩)
    · refine (ruleSources_pairwise hids).imp ?_
      intro a b hlt x hx y hy
      obtain ⟨-, rfl, -⟩ := mem_ruleLinks.mp hx
      obtain ⟨-, rfl, -⟩ := mem_ruleLinks.mp hy
      exact Prod.Lex.toLex_lt_toLex.mpr (.inl hlt)
  have hnodup : ((ruleSources g).flatMap (ruleLinks g)).Nodup := by
    refine hordered.imp ?_
    rintro x y hlt rfl
    exact lt_irrefl _ hlt
  have hperm : ((ruleSources g).flatMap (ruleLinks g)).Perm
      (g.edges.zipIdx.filter fun x => becomesRule g x.1) := by
    refine (List.perm_ext_iff_of_nodup hnodup ((positions_nodup g.edges).filter _)).mpr fun x => ?_
    simp only [List.mem_flatMap, mem_ruleLinks, List.mem_filter]
    constructor
    · rintro ⟨id, -, hmem, -, hrule⟩
      exact ⟨hmem, hrule⟩
    · rintro ⟨hmem, hrule⟩
      exact ⟨x.1.source, mem_ruleSources_of_becomesRule hids hrule, hmem, rfl, hrule⟩
  refine ⟨_, ⟨hperm, hordered, map_some_rules hids⟩, ?_⟩
  rintro other ⟨hsame, hother, -⟩
  refine (hsame.trans hperm.symm).eq_of_pairwise ?_ hother hordered
  intro x y _ _ hxy hyx
  exact absurd hyx (lt_asymm hxy)

/-- Three routing nodes, of which the last is entered best and the first is not entered. The
last has one edge twice, the second one that leads nowhere, and the inbound leads past all
three as well. -/
def crossing : Graph where
  nodes := [
    ⟨"rest", .origin, .routing ⟨"", .none⟩, none⟩,
    ⟨"later", .origin, .routing ⟨"", .none⟩, none⟩,
    ⟨"first", .origin, .routing ⟨"", .none⟩, none⟩,
    ⟨"in", .origin, .inbound ⟨"in", .socks, "", 1080, none, [], none, none⟩, none⟩,
    ⟨"a", .origin, .terminal ⟨"a", .freedom⟩, none⟩,
    ⟨"b", .origin, .balancer ⟨"b", .random, []⟩, none⟩]
  edges := [⟨"1", "in", "later", .plain, none⟩, ⟨"2", "rest", "a", .plain, none⟩,
    ⟨"3", "in", "first", .plain, some ⟨some 5, none, none⟩⟩, ⟨"4", "first", "a", .plain, none⟩,
    ⟨"5", "first", "b", .plain, some ⟨some 1, none, none⟩⟩, ⟨"4", "first", "a", .plain, none⟩,
    ⟨"6", "later", "gone", .plain, none⟩, ⟨"7", "later", "b", .plain, none⟩,
    ⟨"8", "in", "b", .plain, some ⟨some 0, none, none⟩⟩]

theorem rules_listing_crossing :
    (crossing.nodes.map Placed.id).Nodup ∧
      ∃! listing : List (Edge × Nat),
        listing.Perm (crossing.edges.zipIdx.filter fun x => becomesRule crossing x.1) ∧
        listing.Pairwise (fun x y => place crossing x < place crossing y) ∧
        (rules crossing).map some = listing.map fun x => ruleOf? crossing x.1 := by
  have hids : (crossing.nodes.map Placed.id).Nodup := by decide
  exact ⟨hids, rules_listing hids⟩

example : ((ruleSources crossing).flatMap (ruleLinks crossing)).map (fun x => (x.1.id, x.2)) =
    [("5", 4), ("4", 3), ("4", 5), ("7", 7), ("2", 1), ("8", 8)] := by decide +kernel

end ProxyPlan.Compile
