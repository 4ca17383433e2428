/-
ProxyPlan.Proofs.DefaultFirst — in which order the user's document lists outbounds and rules.

A link is an edge that joins two nodes of a client graph and leads to an exit, which is a node
that becomes an outbound (`Graph.Joins`). Links of one node are ranked by priority and position,
and `Graph.links` lists them best rank first. Both orders of the document come from this list.

The user's default exit is the target of the user's best link (`default?_eq_some`), so the
outbounds are that of the default exit, if there is one, and those of the remaining exits in the
order of the nodes (`map_some_listed`). The document finds the default outbound by its tag while
the outbounds are listed one by one; only because no two exits have the same tag does it move
that outbound and no other one.

The rules are those of the links of rules nodes, node by node (`map_some_clientRules`). As in the
larger topology, the order of the links is strict, so that it determines the listing.
-/
import ProxyPlan.Proofs.ClientDocuments
import ProxyPlan.Proofs.Order
import ProxyPlan.Proofs.RuleListing

namespace ProxyPlan.Client

open Compile (Options)

variable {g : Graph} {id : String}

/-! ## Exits and links -/

/-- The node becomes an outbound. -/
def isExit (n : Node) : Bool :=
  n.role.kind = .server || n.role.kind = .internet || n.role.kind = .block

/-- The nodes that become outbounds. -/
def Graph.exits (g : Graph) : List Node := g.nodes.filter isExit

theorem outboundTag?_isSome (n : Node) : n.outboundTag?.isSome = isExit n := by
  obtain ⟨id, position, role, server⟩ := n
  cases role <;> rfl

theorem outboundOf?_isSome (n : Node) : (outboundOf? n).isSome = isExit n := by
  rw [← outboundTag?_isSome, ← tag_outboundOf?, Option.isSome_map]

/-- An edge, with its position, between two nodes. -/
structure Link where
  source : Node
  edge : Edge
  position : ℕ
  target : Node
deriving DecidableEq

/-- Links are ranked by priority, those of one priority by position. -/
def Link.rank (l : Link) : ℕ ×ₗ ℕ := Compile.rank (l.edge, l.position)

/-- The link is in the graph, and it leads to an exit. -/
structure Graph.Joins (g : Graph) (l : Link) : Prop where
  edge_mem : (l.edge, l.position) ∈ g.edges.zipIdx
  source_mem : l.source ∈ g.nodes
  source : l.edge.source = l.source.id
  target_mem : l.target ∈ g.nodes
  target : l.edge.target = l.target.id
  exit : isExit l.target = true

theorem node?_eq_some (hids : (g.nodes.map Placed.id).Nodup) {n : Node} :
    g.node? id = some n ↔ n ∈ g.nodes ∧ n.id = id := by
  constructor
  · intro hn
    exact ⟨List.mem_reverse.mp (List.mem_of_find?_eq_some hn), by simpa using List.find?_some hn⟩
  · rintro ⟨hmem, rfl⟩
    obtain ⟨m, hm⟩ := Option.isSome_iff_exists.mp
      (List.find?_isSome (p := fun m : Node => m.id == n.id).mpr
        ⟨n, List.mem_reverse.mpr hmem, beq_self_eq_true n.id⟩)
    have hsame : m.id = n.id := by simpa using List.find?_some hm
    have hmem' : m ∈ g.nodes := List.mem_reverse.mp (List.mem_of_find?_eq_some hm)
    rw [Graph.node?, hm, List.inj_on_of_nodup_map hids hmem' hmem hsame]

/-- The links from a node, best rank first. -/
def Graph.links (g : Graph) (n : Node) : List Link :=
  (Compile.ranked ⟨[], g.edges⟩ fun e => e.source == n.id).filterMap fun x =>
    ((g.node? x.1.target).filter isExit).map fun d => ⟨n, x.1, x.2, d⟩

theorem mem_links (hids : (g.nodes.map Placed.id).Nodup) {n : Node} (hn : n ∈ g.nodes) {l : Link} :
    l ∈ g.links n ↔ g.Joins l ∧ l.source = n := by
  rw [Graph.links, List.mem_filterMap]
  constructor
  · rintro ⟨x, hx, hl⟩
    obtain ⟨hedge, hsource⟩ := Compile.mem_ranked.mp hx
    obtain ⟨d, hd, rfl⟩ := Option.map_eq_some_iff.mp hl
    obtain ⟨hfound, hexit⟩ := Option.filter_eq_some_iff.mp hd
    obtain ⟨hmem, htarget⟩ := (node?_eq_some hids).mp hfound
    exact ⟨⟨hedge, hn, by simpa using hsource, hmem, htarget.symm, hexit⟩, rfl⟩
  · rintro ⟨hl, rfl⟩
    refine ⟨(l.edge, l.position),
      Compile.mem_ranked.mpr ⟨hl.edge_mem, by simpa using hl.source⟩, ?_⟩
    have hfound := (node?_eq_some hids).mpr ⟨hl.target_mem, hl.target.symm⟩
    rw [hfound, Option.filter_some_pos hl.exit]
    rfl

theorem links_source {n : Node} {l : Link} (h : l ∈ g.links n) : l.source = n := by
  obtain ⟨x, -, hl⟩ := List.mem_filterMap.mp h
  obtain ⟨d, -, rfl⟩ := Option.map_eq_some_iff.mp hl
  rfl

theorem links_pairwise (g : Graph) (n : Node) :
    (g.links n).Pairwise fun l l' => l.rank < l'.rank := by
  refine List.Pairwise.filterMap _ ?_ (Compile.ranked_pairwise _ _)
  intro x y hlt l hl l' hl'
  obtain ⟨d, -, rfl⟩ := Option.map_eq_some_iff.mp hl
  obtain ⟨d', -, rfl⟩ := Option.map_eq_some_iff.mp hl'
  exact hlt

/-- The links of a node lead to those of its targets that are exits. -/
theorem target_links (g : Graph) (n : Node) :
    (g.links n).map Link.target = (g.targets n.id).filter isExit := by
  rw [Graph.links, List.map_filterMap, Graph.targets, List.filter_filterMap,
    ← Compile.map_ranked ⟨[], g.edges⟩, List.filterMap_map]
  refine List.filterMap_congr fun x _ => ?_
  simp [Function.comp_def]

/-- The tags that the document looks up among the targets of a node are those of its links. -/
theorem map_some_targetTags (g : Graph) (n : Node) :
    ((g.targets n.id).filterMap Node.outboundTag?).map some =
      (g.links n).map fun l => l.target.outboundTag? := by
  have htags := congrArg (List.map Node.outboundTag?) (target_links g n)
  rw [List.map_map] at htags
  rw [Order.map_some_filterMap, funext outboundTag?_isSome, ← htags]
  rfl

/-- The first tag among the targets of a node is that of its best link. -/
theorem findSome?_targets (g : Graph) (n : Node) :
    (g.targets n.id).findSome? Node.outboundTag? =
      (g.links n).head?.bind fun l => l.target.outboundTag? := by
  have hfirst := congrArg List.head? (map_some_targetTags g n)
  rw [List.head?_map, List.head?_map] at hfirst
  rw [← List.head?_filterMap]
  cases hl : (g.links n).head? with
  | none => simpa only [hl, Option.map_none, Option.map_eq_none_iff, Option.bind_none] using hfirst
  | some l =>
    rw [hl, Option.map_some, Option.map_eq_some_iff] at hfirst
    obtain ⟨tag, htag, hsome⟩ := hfirst
    rw [htag, hsome, Option.bind_some]

/-! ## The default exit -/

/-- The user's traffic goes there by default: it is where the best link of the first user
leads. -/
def Graph.IsDefault (g : Graph) (d : Node) : Prop :=
  ∃ l : Link, g.nodes.find? (fun n => n.role.kind = .user) = some l.source ∧ g.Joins l ∧
    l.target = d ∧ ∀ l' : Link, g.Joins l' → l'.source = l.source → l.rank ≤ l'.rank

theorem kind_eq_user {r : Role} : r.kind = .user ↔ ∃ ports, r = .user ports := by
  cases r <;> simp [Role.kind]

/-- The default exit, if there is one. -/
def Graph.default? (g : Graph) : Option Node :=
  (g.nodes.find? fun n => n.role.kind = .user).bind fun u => (g.links u).head?.map Link.target

theorem default?_eq_some (hids : (g.nodes.map Placed.id).Nodup) {d : Node} :
    g.default? = some d ↔ g.IsDefault d := by
  unfold Graph.default? Graph.IsDefault
  constructor
  · intro hd
    obtain ⟨u, hu, hlink⟩ := Option.bind_eq_some_iff.mp hd
    obtain ⟨l, hl, rfl⟩ := Option.map_eq_some_iff.mp hlink
    have hmem := fun l => mem_links hids (List.mem_of_find?_eq_some hu) (l := l)
    obtain ⟨rest, hlinks⟩ := List.head?_eq_some_iff.mp hl
    obtain ⟨hjoins, rfl⟩ := (hmem l).mp (List.mem_of_mem_head? hl)
    refine ⟨l, hu, hjoins, rfl, ?_⟩
    intro l' hjoins' hsource
    have hl' := (hmem l').mpr ⟨hjoins', hsource⟩
    have hordered := links_pairwise g l.source
    rw [hlinks] at hl' hordered
    obtain rfl | hl' := List.mem_cons.mp hl'
    · exact le_refl _
    · exact le_of_lt ((List.pairwise_cons.mp hordered).1 l' hl')
  · rintro ⟨l, hu, hjoins, rfl, hbest⟩
    have hmem := fun l => mem_links hids (List.mem_of_find?_eq_some hu) (l := l)
    have hl := (hmem l).mpr ⟨hjoins, rfl⟩
    rw [hu, Option.bind_some]
    have hordered := links_pairwise g l.source
    cases hlinks : g.links l.source with
    | nil => simp [hlinks] at hl
    | cons first rest =>
      rw [hlinks] at hmem hl hordered
      obtain rfl | hl := List.mem_cons.mp hl
      · rfl
      · -- the first link has a better rank than `l`, which has the best one
        obtain ⟨hfirst, hsource⟩ := (hmem first).mp List.mem_cons_self
        have hlt := (List.pairwise_cons.mp hordered).1 l hl
        exact absurd hlt (not_lt_of_ge (hbest first hfirst hsource))

/-- The document knows the default exit by its tag. -/
theorem defaultTag?_eq (g : Graph) : g.defaultTag? = g.default?.bind Node.outboundTag? := by
  rw [Graph.defaultTag?, Graph.user?, Graph.default?,
    Order.findSome?_eq_bind (p := fun n : Node => n.role.kind = .user) ?isUser]
  case isUser =>
    intro n _
    obtain ⟨id, position, role, server⟩ := n
    cases role <;> rfl
  cases hu : g.nodes.find? fun n => n.role.kind = .user with
  | none => rfl
  | some u =>
    have hkind : u.role.kind = .user := by simpa using List.find?_some hu
    obtain ⟨ports, hrole⟩ := kind_eq_user.mp hkind
    simp only [Option.bind_some, hrole, findSome?_targets]
    cases (g.links u).head? <;> rfl

theorem default?_mem (hids : (g.nodes.map Placed.id).Nodup) {d : Node} (h : g.default? = some d) :
    d ∈ g.nodes ∧ isExit d = true := by
  obtain ⟨l, -, hjoins, rfl, -⟩ := (default?_eq_some hids).mp h
  exact ⟨hjoins.target_mem, hjoins.exit⟩

/-! ## Outbounds -/

/-- What does not have the default tag is listed behind the rest. -/
theorem foldl_withOutbound_of_ne {tag : Option String} {outbounds : List Document.Outbound}
    (h : ∀ o ∈ outbounds, tag ≠ some o.tag) (listed : List Document.Outbound) :
    outbounds.foldl (withOutbound tag) listed = listed ++ outbounds := by
  induction outbounds generalizing listed with
  | nil => simp
  | cons o rest ih =>
    obtain ⟨ho, hrest⟩ := List.forall_mem_cons.mp h
    rw [List.foldl_cons, withOutbound, if_neg ho, ih hrest]
    simp

/-- An outbound that alone has the default tag is moved to the front. -/
theorem defaultFirst_middle {tag : Option String} {o : Document.Outbound}
    {before after : List Document.Outbound} (ho : tag = some o.tag)
    (hbefore : ∀ x ∈ before, tag ≠ some x.tag) (hafter : ∀ x ∈ after, tag ≠ some x.tag) :
    defaultFirst tag (before ++ o :: after) = o :: (before ++ after) := by
  rw [defaultFirst, List.foldl_append, foldl_withOutbound_of_ne hbefore, List.foldl_cons,
    withOutbound, if_pos ho, foldl_withOutbound_of_ne hafter]
  simp

theorem map_some_outboundOf? (nodes : List Node) :
    (nodes.filterMap outboundOf?).map some = (nodes.filter isExit).map outboundOf? := by
  rw [Order.map_some_filterMap, funext outboundOf?_isSome]

/-- Nodes with other tags have outbounds with other tags. -/
theorem ne_tag_of_not_mem {tag : String} {nodes : List Node}
    (h : tag ∉ nodes.filterMap Node.outboundTag?) :
    ∀ o ∈ nodes.filterMap outboundOf?, some tag ≠ some o.tag := by
  intro o ho heq
  refine h ?_
  rw [Option.some.inj heq, ← funext tag_outboundOf?, ← List.map_filterMap]
  exact List.mem_map_of_mem ho

/-- The outbounds of the exits are listed one for one, the default exit first. -/
theorem map_some_listed (hids : (g.nodes.map Placed.id).Nodup) (htags : g.writtenTags.Nodup) :
    (defaultFirst g.defaultTag? (g.nodes.filterMap outboundOf?)).map some =
      (g.default?.toList ++ g.exits.filter fun n => some n ≠ g.default?).map outboundOf? := by
  rw [defaultTag?_eq]
  cases hd : g.default? with
  | none =>
    rw [defaultFirst, foldl_withOutbound_of_ne (by simp), List.nil_append, map_some_outboundOf?]
    simp [Graph.exits]
  | some d =>
    obtain ⟨hmem, hexit⟩ := default?_mem hids hd
    obtain ⟨out, hout⟩ := Option.isSome_iff_exists.mp ((outboundOf?_isSome d).trans hexit)
    have htag : d.outboundTag? = some out.tag := by rw [← tag_outboundOf?, hout, Option.map_some]
    obtain ⟨before, after, hnodes⟩ := List.append_of_mem hmem
    -- neither the default exit nor its tag occurs a second time
    have hothers : ∀ n ∈ before ++ after, n ≠ d := by
      have hnodup := hids.of_map
      rw [hnodes, List.nodup_middle, List.nodup_cons] at hnodup
      rintro n hn rfl
      exact hnodup.1 hn
    have hfree : out.tag ∉ before.filterMap Node.outboundTag? ++
        after.filterMap Node.outboundTag? := by
      rw [Graph.writtenTags, hnodes, List.filterMap_append, List.filterMap_cons_some htag,
        List.nodup_middle, List.nodup_cons] at htags
      exact htags.1
    rw [List.mem_append, not_or] at hfree
    have hrest : (g.exits.filter fun n => some n ≠ some d) = (before ++ after).filter isExit := by
      rw [Graph.exits, hnodes, List.filter_filter, List.filter_append, List.filter_append,
        List.filter_cons_of_neg (by simp)]
      congr 1 <;> refine List.filter_congr fun n hn => ?_
      · simp [hothers n (List.mem_append_left _ hn)]
      · simp [hothers n (List.mem_append_right _ hn)]
    rw [hnodes, List.filterMap_append, List.filterMap_cons_some hout, Option.bind_some, htag,
      defaultFirst_middle rfl (ne_tag_of_not_mem hfree.1) (ne_tag_of_not_mem hfree.2), hrest,
      ← List.filterMap_append, List.map_cons, map_some_outboundOf?]
    simp [hout]

/-- A way out is added if no internet node is drawn and no outbound has its tag. -/
theorem outbounds_eq (g : Graph) : g.outbounds =
    defaultFirst g.defaultTag? (g.nodes.filterMap outboundOf?) ++
      if (∃ n ∈ g.nodes, n.role.kind = .internet) ∨ "direct" ∈ g.writtenTags then []
      else [direct "direct"] := by
  have hdirect : ((defaultFirst g.defaultTag? (g.nodes.filterMap outboundOf?)).any
      fun o => o.tag == "direct") = true ↔ "direct" ∈ g.writtenTags := by
    rw [Graph.writtenTags, ← funext tag_outboundOf?, ← List.map_filterMap,
      ← ((defaultFirst_perm g.defaultTag? _).map Document.Outbound.tag).mem_iff]
    simp [List.mem_map]
  unfold Graph.outbounds
  simp only [Bool.or_eq_true, hdirect, List.any_eq_true, decide_eq_true_eq]
  split
  · rw [List.append_nil]
  · rfl

/-! ## Rules -/

/-- What a link becomes if it leaves a rules node. -/
def Link.rule? (l : Link) : Option Document.Rule :=
  match l.source.role with
  | .rules c => l.target.outboundTag?.map fun tag => Compile.rule c.predicates (.outbound tag)
  | _ => none

/-- Where the rule of a link stands: with its node, and there by rank. -/
def Graph.place (g : Graph) (l : Link) : ℕ ×ₗ ℕ ×ₗ ℕ :=
  toLex ((g.nodes.map Placed.id).idxOf l.source.id, l.rank)

/-- The links from rules nodes, node by node. -/
def Graph.ruleLinks (g : Graph) : List Link :=
  (g.nodes.filter fun n => n.role.kind = .rules).flatMap g.links

theorem mem_ruleLinks (hids : (g.nodes.map Placed.id).Nodup) {l : Link} :
    l ∈ g.ruleLinks ↔ l.source.role.kind = .rules ∧ g.Joins l := by
  simp only [Graph.ruleLinks, List.mem_flatMap, List.mem_filter, decide_eq_true_eq]
  constructor
  · rintro ⟨n, ⟨hn, hkind⟩, hl⟩
    obtain ⟨hjoins, rfl⟩ := (mem_links hids hn).mp hl
    exact ⟨hkind, hjoins⟩
  · rintro ⟨hkind, hjoins⟩
    exact ⟨l.source, ⟨hjoins.source_mem, hkind⟩,
      (mem_links hids hjoins.source_mem).mpr ⟨hjoins, rfl⟩⟩

theorem ruleLinks_pairwise (hids : (g.nodes.map Placed.id).Nodup) :
    g.ruleLinks.Pairwise fun l l' => g.place l < g.place l' := by
  refine List.pairwise_flatMap.mpr ⟨?_, ?_⟩
  · intro n _
    refine (links_pairwise g n).imp_of_mem ?_
    intro l l' hl hl' hlt
    exact Prod.Lex.toLex_lt_toLex.mpr (.inr ⟨by rw [links_source hl, links_source hl'], hlt⟩)
  · refine ((List.pairwise_map.mp (Compile.idxOf_pairwise hids)).filter _).imp ?_
    intro n n' hlt l hl l' hl'
    refine Prod.Lex.toLex_lt_toLex.mpr (.inl ?_)
    rwa [links_source hl, links_source hl']

theorem kind_eq_rules {r : Role} : r.kind = .rules ↔ ∃ c, r = .rules c := by
  cases r <;> simp [Role.kind]

theorem map_some_rulesOf (g : Graph) (n : Node) :
    (g.rulesOf n).map some =
      if n.role.kind = .rules then (g.links n).map Link.rule? else [] := by
  split
  case isTrue hkind =>
    obtain ⟨c, hrole⟩ := kind_eq_rules.mp hkind
    have hlinks : (g.links n).map Link.rule? =
        ((g.links n).map fun l => l.target.outboundTag?).map
          (Option.map fun tag => Compile.rule c.predicates (.outbound tag)) := by
      rw [List.map_map]
      refine List.map_congr_left fun l hl => ?_
      rw [Link.rule?, links_source hl, hrole]
      rfl
    rw [hlinks, ← map_some_targetTags, Graph.rulesOf, hrole]
    simp [Function.comp_def]
  case isFalse hkind =>
    unfold Graph.rulesOf
    split
    case h_1 c hrole => exact absurd (kind_eq_rules.mpr ⟨c, hrole⟩) hkind
    case h_2 => rfl

/-- The rules are those of the links from rules nodes. -/
theorem map_some_clientRules (g : Graph) :
    (g.nodes.flatMap g.rulesOf).map some = g.ruleLinks.map Link.rule? := by
  have hskipped : ∀ n ∈ g.nodes, decide (n.role.kind = .rules) = false →
      (g.rulesOf n).map some = [] := by
    intro n _ hkind
    rw [map_some_rulesOf, if_neg (by simpa using hkind)]
  rw [Graph.ruleLinks, List.map_flatMap, List.map_flatMap, ← Order.flatMap_filter hskipped]
  refine List.flatMap_congr fun n hn => ?_
  rw [map_some_rulesOf, if_pos (by simpa using (List.mem_filter.mp hn).2)]

/-! ## The document -/

/-- If no two nodes have the same identity and no two exits the same tag, then the outbounds of
the user's document are those of the exits, one for one: first that of the exit to which the
best link of the first user leads, if there is one, and then those of the other exits in the
order of the nodes. A way out follows exactly if no internet node is drawn and no exit has its
tag.

Its rules are those of exactly the links from rules nodes, one for each: there is one way to
list these links so that they stand in the order of their nodes, and those of one node by
rank. -/
theorem clientDocument_listing (o : Options) (hids : (g.nodes.map Placed.id).Nodup)
    (htags : g.writtenTags.Nodup) :
    (∃ first : Option Node, (∀ d, first = some d ↔ g.IsDefault d) ∧
      (g.clientDocument o).outbounds.map some =
        (first.toList ++ g.exits.filter fun n => some n ≠ first).map outboundOf? ++
          if (∃ n ∈ g.nodes, n.role.kind = .internet) ∨ "direct" ∈ g.writtenTags then []
          else [some (direct "direct")]) ∧
    ∃! listing : List Link,
      (∀ l, l ∈ listing ↔ l.source.role.kind = .rules ∧ g.Joins l) ∧
      listing.Pairwise (fun l l' => g.place l < g.place l') ∧
      (g.clientDocument o).routing.rules.map some = listing.map Link.rule? := by
  refine ⟨⟨g.default?, fun d => default?_eq_some hids, ?outbounds⟩, g.ruleLinks,
    ⟨fun l => mem_ruleLinks hids, ruleLinks_pairwise hids, map_some_clientRules g⟩, ?unique⟩
  case outbounds =>
    rw [Graph.clientDocument, outbounds_eq, List.map_append, map_some_listed hids htags]
    split <;> rfl
  case unique =>
    rintro listing ⟨hmem, hordered, -⟩
    refine Order.eq_of_keys hordered (ruleLinks_pairwise hids) fun l => ?_
    rw [hmem, mem_ruleLinks hids]

/-- The user's best edge leads nowhere and the next one to rules, so that the second server is
the default exit; what another user points at does not count. The first rules node has one edge
twice, one to a node that is no exit and one that leads nowhere. -/
def detour : Graph where
  nodes := [⟨"ads", .origin, .rules ⟨"", { Predicates.none with domain := ["ads"] }⟩, none⟩,
    ⟨"b", .origin, .block "block", none⟩, ⟨"u", .origin, .user .usual, none⟩,
    ⟨"v", .origin, .user .usual, none⟩,
    ⟨"s", .origin, .server ⟨"far", .socks, "192.0.2.1", 1080, none, none, none, none⟩, none⟩,
    ⟨"t", .origin, .server ⟨"near", .socks, "192.0.2.2", 1080, none, none, none, none⟩, none⟩,
    ⟨"rest", .origin, .rules ⟨"", .none⟩, none⟩]
  edges := [⟨"1", "v", "b", .plain, some ⟨some 0, none, none⟩⟩,
    ⟨"2", "u", "s", .plain, some ⟨some 5, none, none⟩⟩,
    ⟨"3", "u", "t", .plain, some ⟨some 4, none, none⟩⟩,
    ⟨"4", "u", "ads", .plain, some ⟨some 3, none, none⟩⟩,
    ⟨"5", "u", "gone", .plain, some ⟨some 2, none, none⟩⟩,
    ⟨"6", "rest", "t", .plain, some ⟨some 0, none, none⟩⟩, ⟨"7", "ads", "b", .plain, none⟩,
    ⟨"8", "ads", "gone", .plain, none⟩, ⟨"9", "ads", "u", .plain, none⟩,
    ⟨"10", "ads", "s", .plain, some ⟨some 1, none, none⟩⟩, ⟨"7", "ads", "b", .plain, none⟩]

theorem clientDocument_listing_detour :
    (detour.nodes.map Placed.id).Nodup ∧ detour.writtenTags.Nodup ∧
      (∃ first : Option Node, (∀ d, first = some d ↔ detour.IsDefault d) ∧
        (detour.clientDocument .usual).outbounds.map some =
          (first.toList ++ detour.exits.filter fun n => some n ≠ first).map outboundOf? ++
            if (∃ n ∈ detour.nodes, n.role.kind = .internet) ∨ "direct" ∈ detour.writtenTags then []
            else [some (direct "direct")]) ∧
      ∃! listing : List Link,
        (∀ l, l ∈ listing ↔ l.source.role.kind = .rules ∧ detour.Joins l) ∧
        listing.Pairwise (fun l l' => detour.place l < detour.place l') ∧
        (detour.clientDocument .usual).routing.rules.map some = listing.map Link.rule? := by
  have hids : (detour.nodes.map Placed.id).Nodup := by decide
  have htags : detour.writtenTags.Nodup := by decide
  exact ⟨hids, htags, clientDocument_listing .usual hids htags⟩

example : (detour.clientDocument .usual).outbounds.map Document.Outbound.tag =
    ["near", "block", "far", "direct"] ∧
    detour.ruleLinks.map (fun l => (l.edge.id, l.position)) =
      [("10", 9), ("7", 6), ("7", 10), ("6", 5)] := by decide +kernel

end ProxyPlan.Client
