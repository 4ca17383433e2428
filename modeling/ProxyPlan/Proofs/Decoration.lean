/-
ProxyPlan.Proofs.Decoration — how edges are drawn is nobody's business.

An edge has a style and perhaps a label, which are there to be looked at. It may also
carry a transport, and this counts only where the edge leads from one group to another:
inside a group nothing is dialled. So an edge can be bared of all that
(`Graph.bareEdge`), and a graph with bare edges looks the same from everywhere.

Baring keeps the ends of an edge and its rank, so it commutes with picking out links and
with sorting them (`outgoing_bareIn`), and whatever looks at ends only comes out as
before. A transport is looked at in two places, the check of transports and the choice of
stream settings, and both ask first whether the edge crosses groups. They look at the
whole graph, while rules and balancers are made in the graph of a group; so edges are
bared as those of one graph, the whole, in the graph they are part of (`Graph.bareIn`).
A walk is the one thing that hands edges on, and it hands on the bare ones
(`Trace.run_bare`).
-/
import Mathlib.Data.List.GetD
import ProxyPlan.Proofs.Audit
import ProxyPlan.Proofs.Groups
import ProxyPlan.Proofs.Walk

namespace ProxyPlan

/-! ## Bare edges -/

namespace Graph

/-- The edge without what it is decorated with: drawn plainly, without a label, and with
a transport only if it crosses groups of the whole graph. Its rank is written out. -/
def bareEdge (whole : Graph) (e : Edge) : Edge where
  id := e.id
  source := e.source
  target := e.target
  style := .plain
  data := some ⟨some e.priority, none, if whole.crossesGroups e then e.transport? else none⟩

/-- A graph that is part of another one, with bare edges. -/
def bareIn (g whole : Graph) : Graph := ⟨g.nodes, g.edges.map whole.bareEdge⟩

/-- A graph with bare edges. -/
def bare (g : Graph) : Graph := g.bareIn g

variable (g whole : Graph)

theorem edges_bare : g.bare.edges = g.edges.map g.bareEdge := rfl

theorem crossesGroups_bare (e : Edge) :
    g.bare.crossesGroups (g.bareEdge e) = g.crossesGroups e := rfl

theorem transport?_bareEdge (e : Edge) :
    (whole.bareEdge e).transport? = if whole.crossesGroups e then e.transport? else none := rfl

theorem byPriority_bare (edges : List Edge) :
    byPriority (edges.map whole.bareEdge) = (byPriority edges).map whole.bareEdge := by
  rw [byPriority_eq, byPriority_eq]
  exact (List.map_insertionSort _ _ whole.bareEdge edges fun _ _ _ _ => .rfl).symm

theorem linksThat_bareIn (test : Edge → Bool) :
    (g.bareIn whole).linksThat test =
      (g.linksThat fun e => test (whole.bareEdge e)).map whole.bareEdge := by
  unfold linksThat bareIn
  rw [List.filter_map]
  rfl

theorem outgoing_bareIn (id : String) :
    (g.bareIn whole).outgoing id = (g.outgoing id).map whole.bareEdge := by
  unfold outgoing
  rw [linksThat_bareIn, byPriority_bare]
  rfl

theorem incoming_bareIn (id : String) :
    (g.bareIn whole).incoming id = (g.incoming id).map whole.bareEdge := by
  unfold incoming
  rw [linksThat_bareIn, byPriority_bare]
  rfl

theorem neighbours_bare (follow : Edge → Bool) :
    g.bare.neighbours follow = g.neighbours fun e => follow (g.bareEdge e) := by
  funext id
  simp only [neighbours, bare, linksThat_bareIn, List.map_map]
  rfl

theorem reachable_bare : g.bare.reachable = g.reachable := by
  funext id
  simp only [reachable, neighbours_bare]
  rfl

theorem loop?_bare : g.bare.loop? = g.loop? := by
  simp only [loop?, neighbours_bare]
  rfl

end Graph

/-! ## Documents -/

/-- A topology with bare edges. -/
def Topology.bare (t : Topology) : Topology :=
  { t with edges := t.edges.map t.graph.bareEdge }

namespace Compile

section

variable (g whole : Graph)

/-! ### In a group -/

theorem targetsOf_bareIn (id : String) : targetsOf (g.bareIn whole) id = targetsOf g id := by
  simp only [targetsOf, Graph.outgoing_bareIn, List.filterMap_map]
  rfl

theorem entered_bareIn : entered (g.bareIn whole) = entered g := by
  simp only [entered, Graph.bareIn, List.filter_map, Graph.byPriority_bare, List.map_map]
  rfl

theorem rules_bareIn : rules (g.bareIn whole) = rules g := by
  simp only [rules, routingRules, routingOrder, entered_bareIn, directRules, targetsOf_bareIn]
  rfl

theorem balancerOf?_bareIn : balancerOf? (g.bareIn whole) = balancerOf? g := by
  funext n
  simp only [balancerOf?, balancer, targetsOf_bareIn]

/-! ### Between groups -/

/-- Edges that cross groups keep their transports, and no others are asked. -/
theorem crossTransports_bare (edges : List Edge) :
    crossTransports g.bare (edges.map g.bareEdge) = crossTransports g edges := by
  simp only [crossTransports, List.filter_map, List.filterMap_map]
  refine List.filterMap_congr ?_
  intro e he
  have hcrosses : g.crossesGroups e = true := (List.mem_filter.mp he).2
  exact if_pos hcrosses

theorem inboundStream_bare : inboundStream g.bare = inboundStream g := by
  funext id c
  rw [inboundStream, Graph.bare, Graph.incoming_bareIn, inboundStream]
  exact congrArg (fun ts => Transport.stream? (Transport.choose ts c.transport))
    (crossTransports_bare g _)

theorem proxyStream_bare : proxyStream g.bare = proxyStream g := by
  funext id c
  rw [proxyStream, Graph.bare, Graph.outgoing_bareIn, proxyStream]
  exact congrArg (fun ts => Transport.stream? (Transport.choose ts c.transport))
    (crossTransports_bare g _)

theorem peer?_bare (servers : List Server) : peer? g.bare servers = peer? g servers := by
  funext id
  simp only [peer?, Graph.bare, Graph.outgoing_bareIn, List.filter_map, List.findSome?_map]
  rfl

end

/-! ### Groups -/

/-- A group of the whole graph with bare edges. -/
def Group.bareIn (part : Group) (whole : Graph) : Group :=
  { part with edges := part.edges.map whole.bareEdge }

theorem document_bare (whole : Graph) (servers : List Server) (o : Options) (part : Group) :
    document whole.bare servers o (part.bareIn whole) = document whole servers o part := by
  have hinbound : inboundOf? whole.bare = inboundOf? whole := by
    funext n
    simp only [inboundOf?, inboundStream_bare]
  have houtbound : outboundOf? whole.bare servers = outboundOf? whole servers := by
    funext n
    simp only [outboundOf?, proxyStream_bare, peer?_bare]
  have hgraph : (part.bareIn whole).graph = part.graph.bareIn whole := rfl
  simp only [document, hinbound, houtbound, hgraph, rules_bareIn, balancerOf?_bareIn]
  rfl

theorem groupsOf_bare (nodes : List Node) (edges : List Edge) (servers : List Server)
    (whole : Graph) (taken : List FileName) (keys : List (Option String)) :
    groupsOf nodes (edges.map whole.bareEdge) servers taken keys =
      (groupsOf nodes edges servers taken keys).map fun part => part.bareIn whole := by
  have hinner : ∀ key, innerEdges nodes (edges.map whole.bareEdge) key =
      (innerEdges nodes edges key).map whole.bareEdge := by
    intro key
    unfold innerEdges
    rw [List.filter_map]
    rfl
  induction keys generalizing taken with
  | nil => rfl
  | cons key rest ih =>
    simp only [groupsOf, hinner, ih]
    split
    · rfl
    · rfl

theorem groups_bare (t : Topology) :
    groups t.bare = (groups t).map fun part => part.bareIn t.graph := by
  simp only [groups, Topology.bare, List.filter_map]
  split
  · rfl
  · exact groupsOf_bare t.nodes t.edges t.servers t.graph [] _

end Compile

/-- Documents say nothing about how edges are drawn. -/
theorem Topology.compile_bare (t : Topology) (o : Compile.Options) :
    t.bare.compile o = t.compile o := by
  unfold Topology.compile
  rw [Compile.groups_bare, List.map_map]
  refine List.map_congr_left ?_
  intro part _
  exact congrArg (Compile.Output.mk part.filename) (Compile.document_bare t.graph t.servers o part)

/-! ## Checks -/

namespace Audit

variable (g : Graph)

/-- A transport that does not count is not checked either. -/
theorem transportsBetweenGroups_bare :
    transportsBetweenGroups g.bare = transportsBetweenGroups g := by
  unfold transportsBetweenGroups
  rw [Graph.edges_bare, List.flatMap_map]
  refine List.flatMap_congr ?_
  intro e _
  rw [Graph.transport?_bareEdge]
  by_cases hcrosses : g.crossesGroups e = true
  case pos =>
    simp only [Graph.crossesGroups_bare, hcrosses, if_true]
    rfl
  case neg =>
    simp only [hcrosses]
    cases e.transport? with
    | none => rfl
    | some t => rfl

theorem danglingEdges_bare : danglingEdges g.bare = danglingEdges g := by
  simp only [danglingEdges, Graph.dangling, Graph.edges_bare, List.filter_map, List.map_map]
  rfl

theorem refusedEdges_bare : refusedEdges g.bare = refusedEdges g := by
  simp only [refusedEdges, Graph.edges_bare, List.flatMap_map]
  rfl

theorem deviceProtocols_bare : deviceProtocols g.bare = deviceProtocols g := by
  simp only [deviceProtocols, Graph.edges_bare, List.flatMap_map]
  rfl

theorem isFed_bare : isFed g.bare = isFed g := by
  funext id
  simp only [isFed, Graph.bare, Graph.incoming_bareIn, List.any_map]
  rfl

theorem reachesTerminal_bare : reachesTerminal g.bare = reachesTerminal g := by
  funext id
  simp only [reachesTerminal, Graph.reachable_bare]
  rfl

theorem loops_bare : loops g.bare = loops g := by
  simp only [loops, Graph.loop?_bare]
  rfl

/-- Nothing is found that has to do with how edges are drawn. -/
theorem check_bare : check g.bare = check g := by
  have houtgoing : ∀ id, (g.bare.outgoing id).isEmpty = (g.outgoing id).isEmpty := by
    intro id
    rw [Graph.bare, Graph.outgoing_bareIn, List.isEmpty_map]
  have hincoming : ∀ id, (g.bare.incoming id).isEmpty = (g.incoming id).isEmpty := by
    intro id
    rw [Graph.bare, Graph.incoming_bareIn, List.isEmpty_map]
  have hissues : issues g.bare = issues g := by
    simp only [issues, structureIssues, transportsBetweenGroups_bare, danglingEdges_bare,
      refusedEdges_bare, inboundsWithoutExit, houtgoing, inboundsForClients, isFed_bare,
      deviceProtocols_bare, unusedOutbounds, hincoming, endsOfChains, inboundsWithoutDestination,
      reachesTerminal_bare, loops_bare]
    rfl
  unfold check
  rw [hissues]

end Audit

/-! ## Walks -/

namespace Trace

variable (g : Graph)

/-- The same way over a bare edge. -/
def Exit.bareIn (x : Exit) (whole : Graph) : Exit := (whole.bareEdge x.1, x.2)

/-- The same decision with bare edges. -/
def Decision.bareIn (d : Decision) (whole : Graph) : Decision :=
  match d with
  | .keep remark ending => .keep remark ending
  | .pass remark x calls => .pass remark (Exit.bareIn x whole) calls

/-- The same trace with bare edges. -/
def bareIn (t : Trace) (whole : Graph) : Trace := { t with edges := t.edges.map whole.bareEdge }

theorem exits_bare (id : String) :
    exits g.bare id = (exits g id).map fun x => Exit.bareIn x g := by
  simp only [exits, Graph.bare, Graph.outgoing_bareIn, List.filterMap_map, List.map_filterMap]
  refine List.filterMap_congr ?_
  intro e _
  have htarget : (g.bareIn g).target? (g.bareEdge e) = g.target? e := rfl
  simp only [Function.comp_apply, htarget, Option.map_map]
  rfl

/-- A test of the node that a way leads to finds the same way. -/
theorem find?_bareIn (whole : Graph) (test : Exit → Bool)
    (htest : ∀ x, test (Exit.bareIn x whole) = test x) (links : List Exit) :
    (links.map fun x => Exit.bareIn x whole).find? test =
      (links.find? test).map fun x => Exit.bareIn x whole := by
  rw [List.find?_map]
  congr 2
  funext x
  exact htest x

theorem atBalancer_bareIn (whole : Graph) (pick : Picker) (calls : List Nat) (n : Node)
    (c : Balancer) (links : List Exit) :
    atBalancer pick calls n c (links.map fun x => Exit.bareIn x whole) =
      (atBalancer pick calls n c links).bareIn whole := by
  have hfilter : (links.map fun x => Exit.bareIn x whole).filter (isCandidate c) =
      (links.filter (isCandidate c)).map fun x => Exit.bareIn x whole := by
    rw [List.filter_map]
    rfl
  cases links with
  | nil => rfl
  | cons x rest =>
    simp only [List.map_cons, atBalancer] at hfilter ⊢
    rw [hfilter]
    cases (x :: rest).filter (isCandidate c) with
    | nil => rfl
    | cons y candidates =>
      have hchosen : ∀ choice, ((y :: candidates).map fun x => Exit.bareIn x whole).getD choice
          (y.bareIn whole) = Exit.bareIn ((y :: candidates).getD choice y) whole :=
        fun _ => List.getD_map _ y fun x => Exit.bareIn x whole
      rw [List.map_cons] at hchosen
      simp only [List.map_cons, List.length_map, Decision.bareIn, hchosen]

variable [Rule.Patterns]

theorem atInbound_bareIn (whole : Graph) (r : Request) (calls : List Nat) (n : Node) (c : Inbound)
    (links : List Exit) : atInbound r calls n c (links.map fun x => Exit.bareIn x whole) =
      (atInbound r calls n c links).bareIn whole := by
  simp only [atInbound, List.isEmpty_map, find?_bareIn whole leadsPastRules fun _ => rfl,
    find?_bareIn whole (leadsToMatch _) fun _ => rfl]
  split
  · rfl
  · cases links.find? (leadsToMatch ⟨r.domain, r.protocol, r.port, c.tag⟩) with
    | some x => rfl
    | none =>
      cases links.find? leadsPastRules with
      | some x => rfl
      | none => rfl

/-- What a node does depends on where its edges lead, not on how they are drawn. -/
theorem decision_bare (pick : Picker) (r : Request) (calls : List Nat) (n : Node) :
    decision g.bare pick r calls n = (decision g pick r calls n).bareIn g := by
  unfold decision
  rw [exits_bare]
  cases n.role with
  | inbound c => exact atInbound_bareIn g r calls n c _
  | routing c =>
    cases exits g n.id with
    | nil => rfl
    | cons x links => rfl
  | balancer c => exact atBalancer_bareIn g pick calls n c _
  | proxy c =>
    simp only [atProxy, find?_bareIn g (fun x => Node.kind x.2 = .inbound) fun _ => rfl]
    cases (exits g n.id).find? fun x => Node.kind x.2 = .inbound with
    | some x => rfl
    | none => rfl
  | terminal c => rfl
  | device c => rfl

theorem walk_bare (pick : Picker) (r : Request) (room : Nat) (visited : List String)
    (calls : List Nat) (n : Node) :
    walk g.bare pick r room visited calls n = (walk g pick r room visited calls n).bareIn g := by
  induction room generalizing visited calls n with
  | zero => rfl
  | succ room ih =>
    simp only [walk, decision_bare]
    split
    case isTrue => rfl
    case isFalse =>
      cases decision g pick r calls n with
      | keep remark ending => rfl
      | pass remark x calls' =>
        simp only [Decision.bareIn, Exit.bareIn, ih]
        rfl

/-- A request goes the same way, over bare edges. -/
theorem run_bare (pick : Picker) (calls : List Nat) (r : Request) :
    run g.bare pick calls r = (run g pick calls r).bareIn g := by
  unfold run
  have hentrance : entrance? g.bare r = entrance? g r := rfl
  rw [hentrance]
  cases entrance? g r with
  | none => rfl
  | some n => exact walk_bare g pick r _ [] calls n

end Trace

/-! ## Edges drawn anew -/

namespace Graph

/-- The second edge joins the same nodes with the same rank as the first one, and if it
crosses groups it carries the same transport. -/
structure Redrawn (g : Graph) (e e' : Edge) : Prop where
  id : e'.id = e.id
  source : e'.source = e.source
  target : e'.target = e.target
  priority : e'.priority = e.priority
  transport : g.crossesGroups e = true → e'.transport? = e.transport?

/-- The second graph has the same nodes and, in the same order, the same edges drawn anew:
in any style, with any labels, and inside groups with any transports. -/
structure Redecorated (g g' : Graph) : Prop where
  nodes : g'.nodes = g.nodes
  edges : List.Forall₂ g.Redrawn g.edges g'.edges

variable {g g' : Graph}

theorem Redrawn.bareEdge_eq {e e' : Edge} (h : g.Redrawn e e') : g.bareEdge e' = g.bareEdge e := by
  have hcrosses : g.crossesGroups e' = g.crossesGroups e := by
    simp only [crossesGroups, source?, target?, h.source, h.target]
  unfold bareEdge
  rw [hcrosses, h.id, h.source, h.target, h.priority]
  by_cases hcross : g.crossesGroups e = true
  · rw [h.transport hcross]
  · simp only [hcross]
    rfl

theorem map_bareEdge_eq {edges edges' : List Edge} (h : List.Forall₂ g.Redrawn edges edges') :
    edges'.map g.bareEdge = edges.map g.bareEdge := by
  induction h with
  | nil => rfl
  | cons he _ ih => rw [List.map_cons, List.map_cons, he.bareEdge_eq, ih]

/-- Once they are bared, nothing tells the edges apart. -/
theorem Redecorated.bare_eq (h : g.Redecorated g') : g'.bare = g.bare := by
  obtain ⟨nodes, edges⟩ := g'
  obtain rfl : nodes = g.nodes := h.nodes
  have hedges : edges.map g.bareEdge = g.edges.map g.bareEdge := map_bareEdge_eq h.edges
  exact congrArg (Graph.mk g.nodes) hedges

end Graph

/-- How edges are drawn has no part in what a check finds, in any document, and in where
a request goes: their styles and labels may be changed at will, and so may the transports
of those that stay in a group. -/
theorem decoration_inert [Rule.Patterns] {t t' : Topology} (h : t.graph.Redecorated t'.graph)
    (hservers : t'.servers = t.servers) :
    Audit.check t'.graph = Audit.check t.graph ∧
    (∀ o, t'.compile o = t.compile o) ∧
    ∀ pick calls r,
      (Trace.run t'.graph pick calls r).steps = (Trace.run t.graph pick calls r).steps ∧
      (Trace.run t'.graph pick calls r).edgeIds = (Trace.run t.graph pick calls r).edgeIds ∧
      (Trace.run t'.graph pick calls r).ending = (Trace.run t.graph pick calls r).ending ∧
      (Trace.run t'.graph pick calls r).calls = (Trace.run t.graph pick calls r).calls ∧
      (Trace.run t'.graph pick calls r).toJson = (Trace.run t.graph pick calls r).toJson := by
  refine ⟨?checks, ?documents, ?traces⟩
  case checks =>
    rw [← Audit.check_bare t'.graph, h.bare_eq, Audit.check_bare]
  case documents =>
    intro o
    have hbare : t'.bare = t.bare := by
      have hnodes : t'.nodes = t.nodes := h.nodes
      have hedges : t'.edges.map t'.graph.bareEdge = t.edges.map t.graph.bareEdge :=
        congrArg Graph.edges h.bare_eq
      unfold Topology.bare
      rw [hedges, hnodes, hservers]
    rw [← Topology.compile_bare t', hbare, Topology.compile_bare]
  case traces =>
    intro pick calls r
    have hrun : (Trace.run t'.graph pick calls r).bareIn t'.graph =
        (Trace.run t.graph pick calls r).bareIn t.graph := by
      rw [← Trace.run_bare, h.bare_eq, Trace.run_bare]
    have hids : ∀ (run : Trace) (whole : Graph), (run.bareIn whole).edgeIds = run.edgeIds := by
      intro run whole
      simp only [Trace.edgeIds, Trace.bareIn, List.map_map]
      rfl
    have hsteps := congrArg Trace.steps hrun
    have hedges := congrArg Trace.edgeIds hrun
    have hending := congrArg Trace.ending hrun
    have hcalls := congrArg Trace.calls hrun
    simp only [hids] at hedges
    simp only [Trace.bareIn] at hsteps hending hcalls
    refine ⟨hsteps, hedges, hending, hcalls, ?_⟩
    simp only [Trace.toJson, Trace.success, Trace.nodeIds, hsteps, hedges, hending]

/-! ### An instance -/

/-- The web socket between two servers. -/
def socket : Transport := ⟨.ws, .none, some ⟨some "/way", none⟩, none, none, none, none⟩

/-- One server behind another, with a web socket between them. -/
def unpainted : Topology where
  nodes := [
    ⟨"in", .origin, .inbound ⟨"in", .socks, "", 1080, none, [], none, none⟩, some "home"⟩,
    ⟨"out", .origin, .proxy ⟨"out", .socks, "192.0.2.2", 1081, none, none, none, none⟩,
      some "home"⟩,
    ⟨"relay", .origin, .inbound ⟨"relay", .socks, "", 1081, none, [], none, none⟩, some "away"⟩,
    ⟨"exit", .origin, .terminal ⟨"exit", .freedom⟩, some "away"⟩]
  edges := [⟨"1", "in", "out", .plain, none⟩,
    ⟨"2", "out", "relay", .plain, some ⟨none, none, some socket⟩⟩,
    ⟨"3", "relay", "exit", .plain, none⟩]
  servers := [⟨"home", "Home", "192.0.2.1", none⟩, ⟨"away", "Away", "192.0.2.2", none⟩]

/-- The same with labels, and with a transport at home that would be refused elsewhere. -/
def painted : Topology :=
  { unpainted with
    edges := [
      ⟨"1", "in", "out", .conditional,
        some ⟨none, some "first", some { socket with security := .reality }⟩⟩,
      ⟨"2", "out", "relay", .conditional, some ⟨some 999, some "far", some socket⟩⟩,
      ⟨"3", "relay", "exit", .plain, some ⟨none, some "", none⟩⟩] }

attribute [local instance] Rule.Patterns.empty

theorem decoration_inert_painted :
    unpainted.graph.Redecorated painted.graph ∧ painted.servers = unpainted.servers ∧
      Audit.check painted.graph = Audit.check unpainted.graph ∧
      (Audit.check painted.graph).errors = [] ∧
      painted.compile .usual = unpainted.compile .usual ∧
      (Trace.run painted.graph Trace.firstPicker [] ⟨"example.com", "tcp", 443, "in"⟩).edgeIds =
        (Trace.run unpainted.graph Trace.firstPicker [] ⟨"example.com", "tcp", 443, "in"⟩).edgeIds ∧
      (Trace.run unpainted.graph Trace.firstPicker [] ⟨"example.com", "tcp", 443, "in"⟩).edgeIds =
        ["1", "2", "3"] := by
  have hhome : unpainted.graph.crossesGroups ⟨"1", "in", "out", .plain, none⟩ = false := by decide
  have hredecorated : unpainted.graph.Redecorated painted.graph := by
    refine ⟨rfl, .cons ⟨rfl, rfl, rfl, rfl, ?_⟩ (.cons ⟨rfl, rfl, rfl, rfl, fun _ => rfl⟩
      (.cons ⟨rfl, rfl, rfl, rfl, fun _ => rfl⟩ .nil))⟩
    simp [hhome]
  obtain ⟨hchecks, hdocuments, htraces⟩ := decoration_inert hredecorated rfl
  exact ⟨hredecorated, rfl, hchecks, by decide +kernel, hdocuments _, (htraces _ _ _).2.1,
    by decide +kernel⟩

end ProxyPlan
