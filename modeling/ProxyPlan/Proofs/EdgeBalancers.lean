/-
ProxyPlan.Proofs.EdgeBalancers — balancers that are given nothing but edges.

A balancer that declares no selector chooses among the outbounds it has edges to, in the graph
and in the document. In the graph it does so edge by edge: all its edges are candidates
(`candidates_eq_exits`). A document knows no edges, and its selectors are beginnings of tags. So
an outbound that the balancer has no edge to is picked there as well if its tag begins with the
tag of one that it has an edge to; this is the one way in which the two come apart
(`edges_balance`, `bundle_strays`).

Selectors are trimmed before they are compared and tags are not. So what is said of the document
holds for outbounds whose tags are trimmed already.
-/
import ProxyPlan.Proofs.Audit
import ProxyPlan.Proofs.Choices
import ProxyPlan.Proofs.Selectors

namespace ProxyPlan

/-! ## Edges between nodes -/

namespace Graph

variable {g : Graph}

/-- Some edge leads from one node to the other. -/
def HasEdge (g : Graph) (n m : Node) : Prop :=
  ∃ e ∈ g.edges, e.source = n.id ∧ e.target = m.id

instance (g : Graph) (n m : Node) : Decidable (g.HasEdge n m) :=
  inferInstanceAs (Decidable (∃ e ∈ g.edges, e.source = n.id ∧ e.target = m.id))

/-- The tag begins with that of a node which the first one has an edge to. -/
def BeginsLikeTarget (g : Graph) (n : Node) (tag : String) : Prop :=
  ∃ m ∈ g.nodes, g.HasEdge n m ∧ ∃ start, m.tag? = some start ∧ start.toList <+: tag.toList

theorem hasEdge_iff (hids : (g.nodes.map Placed.id).Nodup) {n m : Node} (hn : n ∈ g.nodes)
    (hm : m ∈ g.nodes) : g.HasEdge n m ↔ ∃ x ∈ Trace.exits g n.id, x.2 = m := by
  constructor
  · rintro ⟨e, he, hs, ht⟩
    have hsource : g.source? e = some n := by rw [source?, hs, node?_of_mem hids hn]
    have htarget : g.target? e = some m := by rw [target?, ht, node?_of_mem hids hm]
    have hlink : g.isLink e = true := isLink_iff_ends.mpr ⟨n, m, hsource, htarget⟩
    exact ⟨(e, m), Trace.mem_exits.mpr ⟨he, hs, hlink, htarget⟩, rfl⟩
  · rintro ⟨x, hx, rfl⟩
    obtain ⟨he, hs, -, ht⟩ := Trace.mem_exits.mp hx
    exact ⟨x.1, he, hs, (node?_id ht).symm⟩

end Graph

namespace Audit

variable {g : Graph}

/-- In a valid graph a balancer has edges to outbounds only. -/
theorem isOutbound_of_balancer (h : (check g).isValid = true) {n : Node} {c : Balancer}
    (hids : (g.nodes.map Placed.id).Nodup) (hn : n ∈ g.nodes) (hc : n.role = .balancer c)
    {x : Trace.Exit} (hx : x ∈ Trace.exits g n.id) : x.2.kind.isOutbound = true := by
  obtain ⟨he, hs, -, ht⟩ := Trace.mem_exits.mp hx
  have hsource : g.source? x.1 = some n := by
    rw [Graph.source?, hs, Graph.node?_of_mem hids hn]
  have hlead := mayLead_of_not_s010 (clean_of_isValid h (by simp)) he hsource ht
  have hkind : n.kind = .balancer := by rw [Node.kind, hc]; rfl
  rw [hkind] at hlead
  cases hk : x.2.kind <;> rw [hk] at hlead <;> first | rfl | cases hlead

end Audit

namespace Trace

variable {g : Graph}

/-- A balancer that declares nothing chooses among all its edges. -/
theorem candidates_eq_exits {n : Node} {c : Balancer} (hc : n.role = .balancer c)
    (hblank : ∀ s ∈ c.selector, Text.blank s = true) : candidates g n = exits g n.id := by
  rw [candidates_balancer hc]
  refine List.filter_eq_self.mpr fun x _ => ?_
  rw [isCandidate, List.all_eq_true.mpr hblank, Bool.true_or]

end Trace

namespace Compile

open Rule (selectorMatches)

variable {g : Graph}

/-- The outbound that a node becomes has the tag of the node. -/
theorem tag_of_plainOutbound? {m : Node} {out : Document.Outbound}
    (h : plainOutbound? m = some out) : m.kind.isOutbound = true ∧ m.tag? = some out.tag := by
  obtain ⟨id, position, role, server⟩ := m
  cases role <;> cases h <;> exact ⟨rfl, rfl⟩

theorem exists_plainOutbound? {m : Node} (h : m.kind.isOutbound = true) :
    ∃ out, plainOutbound? m = some out := by
  obtain ⟨id, position, role, server⟩ := m
  cases role <;> first | exact ⟨_, rfl⟩ | cases h

/-- What a balancer leads to, node by node. -/
theorem leadsToOutbound_iff (hids : (g.nodes.map Placed.id).Nodup) {n : Node} (hn : n ∈ g.nodes)
    {tag : String} : LeadsToOutbound g n.id tag ↔
      ∃ m ∈ g.nodes, g.HasEdge n m ∧ m.kind.isOutbound = true ∧ m.tag? = some tag := by
  constructor
  · rintro ⟨e, he, hs, -, m, hm, hkind, htag⟩
    exact ⟨m, Graph.node?_mem hm, ⟨e, he, hs, (Graph.node?_id hm).symm⟩, hkind, htag⟩
  · rintro ⟨m, hm, hedge, hkind, htag⟩
    obtain ⟨x, hx, rfl⟩ := (Graph.hasEdge_iff hids hn hm).mp hedge
    obtain ⟨he, hs, hlink, ht⟩ := Trace.mem_exits.mp hx
    exact ⟨x.1, he, hs, hlink, x.2, ht, hkind, htag⟩

/-- A balancer that declares nothing is compiled to a selector that picks what begins with the
tag of an outbound it leads to. -/
theorem selectorMatches_undeclared {id : String} {c : Balancer} {t : String}
    (hblank : ∀ s ∈ c.selector, Text.blank s = true)
    (htrim : ∀ tag, LeadsToOutbound g id tag → Text.trim tag = tag) :
    selectorMatches (balancer g id c).selector t = true ↔
      ∃ tag, LeadsToOutbound g id tag ∧ Text.blank tag = false ∧ tag.toList <+: t.toList := by
  have hnone : selectorMatches (declared c) t = false := by
    have hempty : declared c = [] := by
      refine List.filterMap_eq_nil_iff.mpr fun s hs => ?_
      simp [Text.nonBlank?, hblank s hs]
    rw [hempty]
    rfl
  show selectorMatches (((targetsOf g id).filterMap Target.outbound?).foldl cover (declared c)) t =
    true ↔ _
  rw [selectorMatches_foldl_cover fun tag htag => htrim tag (mem_connected.mp htag), hnone]
  simp only [mem_connected, Bool.false_eq_true, false_or]

/-- In a valid graph without servers, a balancer that declares no selector has edges to outbounds
only, and all of them are its candidates. If none of these outbounds has a tag with white space
at its ends, then in the document the balancer picks the outbounds whose tags begin with the tag
of one that it has an edge to. So it picks all that it has edges to, and no others just when no
other outbound has a tag that begins in this way. -/
theorem edges_balance {t : Topology} (o : Options) (hids : (t.nodes.map Placed.id).Nodup)
    (hungrouped : ∀ n ∈ t.nodes, n.group = none) (hvalid : (Audit.check t.graph).isValid = true)
    {n : Node} (hn : n ∈ t.nodes) {c : Balancer} (hc : n.role = .balancer c)
    (hblank : ∀ s ∈ c.selector, Text.blank s = true) :
    t.compile o = [⟨soleFile, plainDocument t.graph o⟩] ∧
    balancer t.graph n.id c ∈ (plainDocument t.graph o).routing.balancers ∧
    (∀ m ∈ t.nodes, t.graph.HasEdge n m → ∃ out, plainOutbound? m = some out) ∧
    (∀ m ∈ t.nodes, t.graph.HasEdge n m ↔ m ∈ (Trace.candidates t.graph n).map Prod.snd) ∧
    ((∀ m ∈ t.nodes, t.graph.HasEdge n m → ∀ tag, m.tag? = some tag → Text.trim tag = tag) →
      (∀ m ∈ t.nodes, ∀ out, plainOutbound? m = some out → t.graph.HasEdge n m →
        selectorMatches (balancer t.graph n.id c).selector out.tag = true) ∧
      (∀ m ∈ t.nodes, ∀ out, plainOutbound? m = some out →
        (selectorMatches (balancer t.graph n.id c).selector out.tag = true ↔
          t.graph.BeginsLikeTarget n out.tag)) ∧
      ((∀ m ∈ t.nodes, ∀ out, plainOutbound? m = some out →
        (selectorMatches (balancer t.graph n.id c).selector out.tag = true ↔
          t.graph.HasEdge n m)) ↔
        ∀ m ∈ t.nodes, ∀ out, plainOutbound? m = some out → t.graph.BeginsLikeTarget n out.tag →
          t.graph.HasEdge n m)) := by
  have hoccurs : ∀ m ∈ t.nodes, t.graph.HasEdge n m → m.kind.isOutbound = true := by
    intro m hm hedge
    obtain ⟨x, hx, rfl⟩ := (Graph.hasEdge_iff hids hn hm).mp hedge
    exact Audit.isOutbound_of_balancer hvalid hids hn hc hx
  refine ⟨compile_ungrouped hungrouped o, ?listed, fun m hm hedge =>
    exists_plainOutbound? (hoccurs m hm hedge), ?candidates, fun htrim => ?trimmed⟩
  case listed =>
    have hlinked : t.graph.linked = t.graph :=
      Graph.linked_eq_self (Audit.isLink_of_isValid hvalid)
    refine List.mem_filterMap.mpr ⟨n, hn, ?_⟩
    rw [hlinked, balancerOf?, hc]
  case candidates =>
    intro m hm
    rw [Trace.candidates_eq_exits hc hblank, Graph.hasEdge_iff hids hn hm, List.mem_map]
  case trimmed =>
    have hleads : ∀ tag, LeadsToOutbound t.graph n.id tag ↔
        ∃ m ∈ t.nodes, t.graph.HasEdge n m ∧ m.tag? = some tag := by
      intro tag
      rw [leadsToOutbound_iff hids hn]
      refine exists_congr fun m => and_congr_right fun hm => and_congr_right fun hedge => ?_
      rw [and_iff_right (hoccurs m hm hedge)]
    have hgiven : ∀ m ∈ t.nodes, ∀ tag, m.tag? = some tag → Text.blank tag = false := by
      intro m hm tag htag
      exact Audit.not_blank_of_not_n001 (Audit.clean_of_isValid hvalid (by simp)) hm htag
    have hpicks : ∀ tag, selectorMatches (balancer t.graph n.id c).selector tag = true ↔
        t.graph.BeginsLikeTarget n tag := by
      intro tag
      have htrimmed : ∀ tag, LeadsToOutbound t.graph n.id tag → Text.trim tag = tag := by
        intro tag hleads'
        obtain ⟨m, hm, hedge, htag⟩ := (hleads tag).mp hleads'
        exact htrim m hm hedge tag htag
      rw [selectorMatches_undeclared hblank htrimmed]
      constructor
      · rintro ⟨start, hstart, -, hbegins⟩
        obtain ⟨m, hm, hedge, htag⟩ := (hleads start).mp hstart
        exact ⟨m, hm, hedge, start, htag, hbegins⟩
      · rintro ⟨m, hm, hedge, start, htag, hbegins⟩
        exact ⟨start, (hleads start).mpr ⟨m, hm, hedge, htag⟩, hgiven m hm start htag, hbegins⟩
    have hown : ∀ m ∈ t.nodes, ∀ out, plainOutbound? m = some out → t.graph.HasEdge n m →
        t.graph.BeginsLikeTarget n out.tag := by
      intro m hm out hout hedge
      exact ⟨m, hm, hedge, out.tag, (tag_of_plainOutbound? hout).2, List.prefix_rfl⟩
    refine ⟨fun m hm out hout hedge => (hpicks out.tag).mpr (hown m hm out hout hedge),
      fun m hm out hout => hpicks out.tag, ?_⟩
    simp only [hpicks]
    constructor
    · intro hexact m hm out hout
      exact (hexact m hm out hout).mp
    · intro honly m hm out hout
      exact ⟨honly m hm out hout, hown m hm out hout⟩

/-- A balancer with edges to two outbounds, and a third one that it has no edge to. -/
def bundle (first second third : String) : Topology where
  nodes := [
    ⟨"in", .origin, .inbound ⟨"in", .socks, "", 1080, none, [], none, none⟩, none⟩,
    ⟨"lb", .origin, .balancer ⟨"lb", .random, [" "]⟩, none⟩,
    ⟨"a", .origin, .terminal ⟨first, .freedom⟩, none⟩,
    ⟨"b", .origin, .terminal ⟨second, .freedom⟩, none⟩,
    ⟨"c", .origin, .terminal ⟨third, .freedom⟩, none⟩]
  edges := [⟨"1", "in", "lb", .plain, none⟩, ⟨"2", "lb", "a", .plain, none⟩,
    ⟨"3", "lb", "b", .plain, none⟩]
  servers := []

/-- What the balancer of a bundle is compiled to. -/
def bundled (t : Topology) : Document.Balancer :=
  balancer t.graph "lb" ⟨"lb", .random, [" "]⟩

theorem edges_balance_bundle :
    ((bundle "eu" "us" "asia").nodes.map Placed.id).Nodup ∧
      (∀ n ∈ (bundle "eu" "us" "asia").nodes, n.group = none) ∧
      (Audit.check (bundle "eu" "us" "asia").graph).isValid = true ∧
      ∃ n ∈ (bundle "eu" "us" "asia").nodes, n.role = .balancer ⟨"lb", .random, [" "]⟩ ∧
        ∀ m ∈ (bundle "eu" "us" "asia").nodes, ∀ out, plainOutbound? m = some out →
          (selectorMatches (bundled (bundle "eu" "us" "asia")).selector out.tag = true ↔
            (bundle "eu" "us" "asia").graph.HasEdge n m) := by
  have hids : ((bundle "eu" "us" "asia").nodes.map Placed.id).Nodup := by decide
  have hungrouped : ∀ n ∈ (bundle "eu" "us" "asia").nodes, n.group = none := by decide
  have hvalid : (Audit.check (bundle "eu" "us" "asia").graph).isValid = true := by decide +kernel
  let n : Node := ⟨"lb", .origin, .balancer ⟨"lb", .random, [" "]⟩, none⟩
  have hn : n ∈ (bundle "eu" "us" "asia").nodes := by decide
  have htrim : ∀ m ∈ (bundle "eu" "us" "asia").nodes, ∀ tag ∈ m.tag?, Text.trim tag = tag := by
    decide
  obtain ⟨-, -, -, -, htrimmed⟩ := edges_balance .usual hids hungrouped hvalid hn rfl (by decide)
  obtain ⟨-, hpicks, hexactly⟩ := htrimmed fun m hm _ => htrim m hm
  refine ⟨hids, hungrouped, hvalid, n, hn, rfl, hexactly.mpr fun m hm out hout hbegins => ?_⟩
  have honly : ∀ m ∈ (bundle "eu" "us" "asia").nodes, ∀ out ∈ plainOutbound? m,
      selectorMatches (bundled (bundle "eu" "us" "asia")).selector out.tag = true →
        (bundle "eu" "us" "asia").graph.HasEdge n m := by decide +kernel
  exact honly m hm out hout ((hpicks m hm out hout).mpr hbegins)

/-- The balancer of a valid graph declares nothing and has edges to two outbounds. In the
document it picks a third one, whose tag begins with that of the first, and it does not pick the
second, whose tag begins with white space. -/
theorem bundle_strays :
    ((bundle "proxy" " spare" "proxy-2").nodes.map Placed.id).Nodup ∧
      (∀ n ∈ (bundle "proxy" " spare" "proxy-2").nodes, n.group = none) ∧
      (Audit.check (bundle "proxy" " spare" "proxy-2").graph).isValid = true ∧
      ∃ n ∈ (bundle "proxy" " spare" "proxy-2").nodes,
        n.role = .balancer ⟨"lb", .random, [" "]⟩ ∧
        (∃ m ∈ (bundle "proxy" " spare" "proxy-2").nodes, ∃ out ∈ plainOutbound? m,
          ¬ (bundle "proxy" " spare" "proxy-2").graph.HasEdge n m ∧
          selectorMatches (bundled (bundle "proxy" " spare" "proxy-2")).selector out.tag = true) ∧
        ∃ m ∈ (bundle "proxy" " spare" "proxy-2").nodes, ∃ out ∈ plainOutbound? m,
          (bundle "proxy" " spare" "proxy-2").graph.HasEdge n m ∧
          selectorMatches (bundled (bundle "proxy" " spare" "proxy-2")).selector out.tag =
            false := by
  refine ⟨by decide, by decide, by decide +kernel, ?_⟩
  refine ⟨⟨"lb", .origin, .balancer ⟨"lb", .random, [" "]⟩, none⟩, by decide, rfl, ?_, ?_⟩
  · exact ⟨⟨"c", .origin, .terminal ⟨"proxy-2", .freedom⟩, none⟩, by decide,
      terminal ⟨"proxy-2", .freedom⟩, rfl, by decide, by decide +kernel⟩
  · exact ⟨⟨"b", .origin, .terminal ⟨" spare", .freedom⟩, none⟩, by decide,
      terminal ⟨" spare", .freedom⟩, rfl, by decide, by decide +kernel⟩

end Compile
end ProxyPlan
