/-
ProxyPlan.Proofs.Dangling — edges that lead nowhere are reported, and do nothing else.

An edge that lacks a node at one end is not a link, and only links count: the links of a
node, what can be reached, where requests go, what becomes a document. So a graph and
its links alone (`Graph.linked`) look the same from everywhere but one place, the check for
dangling edges. Each theorem below says so of one function, and identities may repeat in
all of them. The issues of a graph are then those of its links, with the dangling edges
in one place among them (`issues_eq_around`).

Two graphs with the same nodes and links can hence be told apart by that check only. It
finds one issue for each dangling edge, in the order of the list, so edges that are put
somewhere into the list put their issues into its errors (`Interleaved`).
-/
import ProxyPlan.Proofs.Audit
import ProxyPlan.Proofs.Locality
import ProxyPlan.Proofs.Walk

namespace ProxyPlan

/-! ## Lists put into lists -/

section

variable {α β : Type} {xs ys zs : List α}

/-- The last list consists of the other two, each of them in its order. -/
inductive Interleaved {α : Type} : List α → List α → List α → Prop
  | nil : Interleaved [] [] []
  | left {x xs ys zs} (rest : Interleaved xs ys zs) : Interleaved (x :: xs) ys (x :: zs)
  | right {y xs ys zs} (rest : Interleaved xs ys zs) : Interleaved xs (y :: ys) (y :: zs)

namespace Interleaved

theorem none_added (xs : List α) : Interleaved xs [] xs := by
  induction xs with
  | nil => exact .nil
  | cons x rest ih => exact .left ih

theorem eq_of_none_added (h : Interleaved xs [] zs) : zs = xs := by
  induction xs generalizing zs with
  | nil => cases h with | nil => rfl
  | cons x rest ih => cases h with | left hrest => rw [ih hrest]

theorem filter (h : Interleaved xs ys zs) (test : α → Bool) :
    Interleaved (xs.filter test) (ys.filter test) (zs.filter test) := by
  induction h with
  | nil => exact .nil
  | left _ ih =>
    rw [List.filter_cons, List.filter_cons]
    split
    case isTrue => exact ih.left
    case isFalse => exact ih
  | right _ ih =>
    rw [List.filter_cons, List.filter_cons]
    split
    case isTrue => exact ih.right
    case isFalse => exact ih

theorem map (h : Interleaved xs ys zs) (f : α → β) :
    Interleaved (xs.map f) (ys.map f) (zs.map f) := by
  induction h with
  | nil => exact .nil
  | left _ ih => exact ih.left
  | right _ ih => exact ih.right

theorem before (h : Interleaved xs ys zs) (first : List α) :
    Interleaved (first ++ xs) ys (first ++ zs) := by
  induction first with
  | nil => exact h
  | cons x rest ih => exact ih.left

theorem after (h : Interleaved xs ys zs) (last : List α) :
    Interleaved (xs ++ last) ys (zs ++ last) := by
  induction h with
  | nil => exact none_added last
  | left _ ih => exact ih.left
  | right _ ih => exact ih.right

end Interleaved
end

/-! ## Links -/

namespace Graph

variable {g : Graph}

@[simp] theorem linksThat_linked (test : Edge → Bool) :
    g.linked.linksThat test = g.linksThat test := by
  show (g.edges.filter g.isLink).filter (fun e => test e && g.isLink e) = _
  rw [List.filter_filter, linksThat]
  exact List.filter_congr fun e _ => by simp

@[simp] theorem outgoing_linked : g.linked.outgoing = g.outgoing := by
  funext id
  rw [outgoing, linksThat_linked, outgoing]

@[simp] theorem incoming_linked : g.linked.incoming = g.incoming := by
  funext id
  rw [incoming, linksThat_linked, incoming]

@[simp] theorem neighbours_linked (follow : Edge → Bool) :
    g.linked.neighbours follow = g.neighbours follow := by
  funext id
  rw [neighbours, linksThat_linked, neighbours]

theorem reachable_linked : g.linked.reachable = g.reachable := by
  funext id
  rw [reachable, neighbours_linked, reachable]
  rfl

theorem loop?_linked : g.linked.loop? = g.loop? := by
  have hfollow : (fun e => !g.linked.isHop e) = fun e => !g.isHop e := rfl
  rw [loop?, hfollow, neighbours_linked, loop?]
  rfl

/-- Looking for something at links only, one looks at no other edges. -/
theorem flatMap_linked {α : Type} {f : Edge → List α} (h : ∀ e, g.isLink e = false → f e = []) :
    g.linked.edges.flatMap f = g.edges.flatMap f := by
  show (g.edges.filter g.isLink).flatMap f = g.edges.flatMap f
  induction g.edges with
  | nil => rfl
  | cons e rest ih =>
    rw [List.filter_cons, List.flatMap_cons, ← ih]
    cases hlink : g.isLink e with
    | false => simp [h e hlink]
    | true => simp

theorem linked_linked : g.linked.linked = g.linked :=
  linked_eq_self fun _ he => (List.mem_filter.mp he).2

end Graph

/-! ## Traces -/

/-- A request goes where links lead. -/
theorem Trace.run_linked [Rule.Patterns] (g : Graph) (pick : Picker) (calls : List Nat)
    (r : Request) : run g.linked pick calls r = run g pick calls r := by
  have hexits : ∀ id, exits g.linked id = exits g id := by
    intro id
    rw [exits, Graph.outgoing_linked, exits]
    rfl
  exact run_congr hexits rfl rfl calls

/-! ## Documents -/

/-- A topology without the edges that lead nowhere. -/
def Topology.linked (t : Topology) : Topology := { t with edges := t.graph.links }

namespace Compile

variable {t : Topology}

/-- What has a group is a node. -/
theorem mem_ids_of_groupOf? {g : Graph} {id : String} {key : Option String}
    (h : groupOf? g.nodes id = some key) : id ∈ g.ids := by
  obtain ⟨n, hn, -⟩ := Option.map_eq_some_iff.mp h
  exact Graph.mem_ids.mpr
    ⟨n, List.mem_reverse.mp (List.mem_of_find?_eq_some hn), by simpa using List.find?_some hn⟩

/-- The edges inside a group are links. -/
theorem innerEdges_linked (t : Topology) (key : Option String) :
    innerEdges t.nodes t.linked.edges key = innerEdges t.nodes t.edges key := by
  show (t.edges.filter t.graph.isLink).filter _ = _
  rw [List.filter_filter]
  refine List.filter_congr ?_
  intro e _
  rw [Bool.eq_iff_iff, Bool.and_eq_true, Bool.and_eq_true, decide_eq_true_eq, decide_eq_true_eq]
  constructor
  · exact And.left
  · rintro ⟨hsource, htarget⟩
    exact ⟨⟨hsource, htarget⟩, (Graph.isLink_iff (g := t.graph)).mpr
      ⟨mem_ids_of_groupOf? hsource, mem_ids_of_groupOf? htarget⟩⟩

theorem groupsOf_linked (t : Topology) (taken : List FileName) (keys : List (Option String)) :
    groupsOf t.nodes t.linked.edges t.servers taken keys =
      groupsOf t.nodes t.edges t.servers taken keys := by
  induction keys generalizing taken with
  | nil => rfl
  | cons key rest ih => simp only [groupsOf, innerEdges_linked, ih]

/-- Groups have no edges but links, whether there are servers or not. -/
theorem groups_linked (t : Topology) : groups t.linked = groups t := by
  by_cases hungrouped : ∀ n ∈ t.nodes, n.group = none
  case pos =>
    have hlinks : t.linked.graph.links = t.graph.links :=
      congrArg Graph.edges (Graph.linked_linked (g := t.graph))
    rw [groups_ungrouped hungrouped, groups_ungrouped (t := t.linked) hungrouped, hlinks]
    rfl
  case neg =>
    obtain ⟨n, hn, hgroup⟩ : ∃ n ∈ t.nodes, n.group ≠ none := by simpa using hungrouped
    rw [groups_grouped hn hgroup, groups_grouped (t := t.linked) hn hgroup]
    exact groupsOf_linked t [] _

/-- What is looked up in the whole graph is looked up among links. -/
theorem document_whole_linked (whole : Graph) (servers : List Server) (o : Options) (g : Group) :
    document whole.linked servers o g = document whole servers o g := by
  have hinbound : inboundOf? whole.linked = inboundOf? whole := by
    funext n
    simp only [inboundOf?, inboundStream, crossTransports, Graph.incoming_linked]
    rfl
  have houtbound : outboundOf? whole.linked servers = outboundOf? whole servers := by
    funext n
    simp only [outboundOf?, proxyStream, peer?, crossTransports, Graph.outgoing_linked]
    rfl
  rw [document, hinbound, houtbound, document]

end Compile

/-- A topology is compiled from its links. -/
theorem Topology.compile_linked (t : Topology) (o : Compile.Options) :
    t.linked.compile o = t.compile o := by
  rw [Topology.compile, Topology.compile, Compile.groups_linked]
  exact List.map_congr_left fun g _ =>
    congrArg _ (Compile.document_whole_linked t.graph t.servers o g)

/-! ## Checks -/

namespace Audit

section

variable {g : Graph}

theorem transportsBetweenGroups_linked :
    transportsBetweenGroups g.linked = transportsBetweenGroups g := by
  refine Graph.flatMap_linked ?_
  intro e hlink
  have hcrosses : ¬ g.crossesGroups e = true := by
    intro hcrosses
    cases hlink.symm.trans (Graph.isLink_of_crosses hcrosses)
  split
  case h_1 => exact if_neg hcrosses
  case h_2 => rfl

theorem refusedEdges_linked : refusedEdges g.linked = refusedEdges g := by
  refine Graph.flatMap_linked ?_
  intro e hlink
  split
  case h_1 s t hs ht => cases hlink.symm.trans (Graph.isLink_iff_ends.mpr ⟨s, t, hs, ht⟩)
  case h_2 => rfl

theorem deviceProtocols_linked : deviceProtocols g.linked = deviceProtocols g := by
  refine Graph.flatMap_linked ?_
  intro e hlink
  split
  case h_1 s t hs ht => cases hlink.symm.trans (Graph.isLink_iff_ends.mpr ⟨s, t, hs, ht⟩)
  case h_2 => rfl

theorem isFed_linked : isFed g.linked = isFed g := by
  funext id
  rw [isFed, Graph.incoming_linked, isFed]
  rfl

theorem reachesTerminal_linked : reachesTerminal g.linked = reachesTerminal g := by
  funext id
  rw [reachesTerminal, Graph.reachable_linked, reachesTerminal]
  rfl

theorem loops_linked : loops g.linked = loops g := by
  rw [loops, Graph.loop?_linked, loops]
  rfl

end

/-- What all checks find, with `found` in the place of the dangling edges. -/
def issuesAround (g : Graph) (found : List Issue) : List Issue :=
  g.nodes.flatMap nodeIssues ++ transportsBetweenGroups g ++ found ++
    ((checks g).drop 3).flatMap Prod.snd

theorem issues_eq_around (g : Graph) : issues g = issuesAround g (danglingEdges g) := by
  simp [issues_eq_checks, issuesAround, checks]

/-- The checks around that for dangling edges look at links only. -/
theorem issuesAround_linked (g : Graph) : issuesAround g.linked = issuesAround g := by
  funext found
  simp only [issuesAround, checks, List.drop_succ_cons, List.drop_zero,
    transportsBetweenGroups_linked, refusedEdges_linked, inboundsWithoutExit, inboundsForClients,
    isFed_linked, deviceProtocols_linked, unusedOutbounds, endsOfChains, inboundsWithoutDestination,
    reachesTerminal_linked, loops_linked, Graph.outgoing_linked, Graph.incoming_linked]
  rfl

end Audit

/-! ## Edges with loose ends -/

/-- The second graph has further edges, put anywhere into the list, each of which lacks a
node at one end at least. -/
structure Graph.LooseEnds (g : Graph) (extra : List Edge) (g' : Graph) : Prop where
  nodes : g'.nodes = g.nodes
  edges : Interleaved g.edges extra g'.edges
  loose : ∀ e ∈ extra, (∀ n ∈ g.nodes, n.id ≠ e.source) ∨ ∀ n ∈ g.nodes, n.id ≠ e.target

namespace Graph.LooseEnds

variable {g g' : Graph} {extra : List Edge}

theorem isLink_eq_false (h : g.LooseEnds extra g') {e : Edge} (he : e ∈ extra) :
    g.isLink e = false := by
  rw [Bool.eq_false_iff, ne_eq, isLink_iff, mem_ids, mem_ids]
  rintro ⟨⟨s, hs, hsource⟩, t, ht, htarget⟩
  rcases h.loose e he with hnone | hnone
  · exact hnone s hs hsource
  · exact hnone t ht htarget

/-- No links are added. -/
theorem linked_eq (h : g.LooseEnds extra g') : g'.linked = g.linked := by
  have hnone : extra.filter g.isLink = [] :=
    List.filter_eq_nil_iff.mpr fun e he => by simp [h.isLink_eq_false he]
  have hlinks : g'.edges.filter g.isLink = g.edges.filter g.isLink := by
    have hkept := h.edges.filter g.isLink
    rw [hnone] at hkept
    exact hkept.eq_of_none_added
  obtain ⟨nodes, edges⟩ := g'
  obtain rfl : nodes = g.nodes := h.nodes
  exact congrArg (Graph.mk g.nodes) hlinks

end Graph.LooseEnds

namespace Audit

variable {g g' : Graph} {extra : List Edge}

theorem level_of_dangling {i : Issue} (hi : i ∈ danglingEdges g) : i.level = .error := by
  obtain ⟨e, -, rfl⟩ := List.mem_map.mp hi
  rfl

/-- The added edges are reported among the others, and nothing else changes. -/
theorem issues_interleaved (h : g.LooseEnds extra g') :
    Interleaved (issues g) (danglingEdges ⟨g.nodes, extra⟩) (issues g') := by
  have hdangling : Interleaved (danglingEdges g) (danglingEdges ⟨g.nodes, extra⟩)
      (danglingEdges g') := by
    obtain ⟨nodes, edges⟩ := g'
    obtain rfl : nodes = g.nodes := h.nodes
    exact (h.edges.filter _).map _
  rw [issues_eq_around, issues_eq_around, ← issuesAround_linked g', h.linked_eq,
    issuesAround_linked]
  exact (hdangling.before _).after _

theorem danglingEdges_loose (h : g.LooseEnds extra g') :
    List.Forall₂ (fun e i => i.code = "S011" ∧ i.node = none ∧ i.edge = some e.id) extra
      (danglingEdges ⟨g.nodes, extra⟩) := by
  have hall : (⟨g.nodes, extra⟩ : Graph).dangling = extra := by
    refine List.filter_eq_self.mpr ?_
    intro e he
    have hlink : (⟨g.nodes, extra⟩ : Graph).isLink e = false := h.isLink_eq_false he
    rw [hlink, Bool.not_false]
  rw [danglingEdges, hall, List.forall₂_map_right_iff, List.forall₂_same]
  exact fun e _ => ⟨rfl, rfl, rfl⟩

/-- Edges that lead nowhere are errors, one each. -/
theorem check_loose (h : g.LooseEnds extra g') :
    Interleaved (check g).errors (danglingEdges ⟨g.nodes, extra⟩) (check g').errors ∧
      (check g').warnings = (check g).warnings ∧ (check g').infos = (check g).infos := by
  have hissues := issues_interleaved h
  have herrors : ((danglingEdges ⟨g.nodes, extra⟩).filter fun i => i.level = .error) =
      danglingEdges ⟨g.nodes, extra⟩ :=
    List.filter_eq_self.mpr fun i hi => decide_eq_true (level_of_dangling hi)
  have hothers : ∀ level, level ≠ Level.error →
      ((danglingEdges ⟨g.nodes, extra⟩).filter fun i => i.level = level) = [] := by
    intro level hlevel
    refine List.filter_eq_nil_iff.mpr ?_
    intro i hi
    simpa [level_of_dangling hi] using hlevel.symm
  have hkept : ∀ level, level ≠ Level.error →
      ((issues g').filter fun i => i.level = level) =
        (issues g).filter fun i => i.level = level := by
    intro level hlevel
    have hfound := hissues.filter fun i => i.level = level
    rw [hothers level hlevel] at hfound
    exact hfound.eq_of_none_added
  refine ⟨?_, hkept .warning (by simp), hkept .info (by simp)⟩
  have hfound := hissues.filter fun i => i.level = .error
  rwa [herrors] at hfound

end Audit

/-- Edges that lack a node at one end do nothing but get reported. Put into a topology
anywhere and in any number, they leave all traces and all documents as they are, and the
check finds one error more for each of them, and the rest as before. -/
theorem looseEnds_inert [Rule.Patterns] {t t' : Topology} {extra : List Edge}
    (h : t.graph.LooseEnds extra t'.graph) (hservers : t'.servers = t.servers) :
    (∀ pick calls r, Trace.run t'.graph pick calls r = Trace.run t.graph pick calls r) ∧
    (∀ o, t'.compile o = t.compile o) ∧
    (∃ new, Interleaved (Audit.check t.graph).errors new (Audit.check t'.graph).errors ∧
      List.Forall₂ (fun e i => i.code = "S011" ∧ i.node = none ∧ i.edge = some e.id) extra new) ∧
    (Audit.check t'.graph).warnings = (Audit.check t.graph).warnings ∧
    (Audit.check t'.graph).infos = (Audit.check t.graph).infos := by
  obtain ⟨herrors, hothers⟩ := Audit.check_loose h
  refine ⟨?traces, ?documents, ⟨_, herrors, Audit.danglingEdges_loose h⟩, hothers⟩
  case traces =>
    intro pick calls r
    rw [← Trace.run_linked t'.graph, h.linked_eq, Trace.run_linked]
  case documents =>
    intro o
    have hlinked : t'.linked = t.linked := by
      have hnodes : t'.nodes = t.nodes := h.nodes
      have hlinks : t'.graph.links = t.graph.links := congrArg Graph.edges h.linked_eq
      rw [Topology.linked, Topology.linked, hlinks, hnodes, hservers]
    rw [← Topology.compile_linked t', hlinked, Topology.compile_linked]

/-- One server behind another. -/
def moored : Topology where
  nodes := [
    ⟨"in", .origin, .inbound ⟨"in", .socks, "", 1080, none, [], none, none⟩, some "home"⟩,
    ⟨"rule", .origin, .routing ⟨"rule", .none⟩, some "home"⟩,
    ⟨"out", .origin, .proxy ⟨"out", .socks, "192.0.2.2", 1081, none, none, none, none⟩,
      some "home"⟩,
    ⟨"relay", .origin, .inbound ⟨"relay", .socks, "", 1081, none, [], none, none⟩, some "away"⟩,
    ⟨"exit", .origin, .terminal ⟨"exit", .freedom⟩, some "away"⟩]
  edges := [⟨"1", "in", "rule", .plain, none⟩, ⟨"2", "rule", "out", .plain, none⟩,
    ⟨"3", "out", "relay", .plain, none⟩, ⟨"4", "relay", "exit", .plain, none⟩]
  servers := [⟨"home", "Home", "192.0.2.1", none⟩, ⟨"away", "Away", "192.0.2.2", none⟩]

/-- Edges to and from nodes that are not there; the first is better than any link. -/
def loose : List Edge :=
  [⟨"x", "rule", "gone", .conditional, some ⟨some 0, none, none⟩⟩,
    ⟨"y", "gone", "in", .plain, none⟩, ⟨"z", "lost", "gone", .plain, none⟩]

/-- The same servers, with loose edges in front, in between and at the end. -/
def frayed : Topology :=
  { moored with edges := loose.take 1 ++ moored.edges.take 2 ++ (loose.drop 1).take 1 ++
      moored.edges.drop 2 ++ loose.drop 2 }

attribute [local instance] Rule.Patterns.empty

theorem looseEnds_inert_frayed :
    moored.graph.LooseEnds loose frayed.graph ∧ frayed.servers = moored.servers ∧
      (Audit.check moored.graph).errors = [] ∧
      (Audit.check frayed.graph).errors.map Audit.Issue.edge = [some "x", some "y", some "z"] ∧
      (Trace.run moored.graph Trace.firstPicker [] ⟨"example.com", "tcp", 443, "in"⟩).edgeIds =
        ["1", "2", "3", "4"] ∧
      Trace.run frayed.graph Trace.firstPicker [] ⟨"example.com", "tcp", 443, "in"⟩ =
        Trace.run moored.graph Trace.firstPicker [] ⟨"example.com", "tcp", 443, "in"⟩ ∧
      frayed.compile .usual = moored.compile .usual := by
  have hloose : moored.graph.LooseEnds loose frayed.graph :=
    ⟨rfl, .right (.left (.left (.right (.left (.left (.right .nil)))))), by decide⟩
  obtain ⟨htraces, hdocuments, -⟩ := looseEnds_inert hloose rfl
  exact ⟨hloose, rfl, by decide +kernel, by decide +kernel, by decide +kernel, htraces _ _ _,
    hdocuments _⟩

end ProxyPlan
