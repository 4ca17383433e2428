/-
ProxyPlan.Proofs.Layers — a graph that is taken over stands in layers.

Whatever a document says, the graph that is made from it is drawn from left to
right: inbounds, routing nodes, balancers and outbounds stand in four columns,
and every edge leads to a column further to the right (`Graph.Layered`). So
there is no loop in it, and no edge that a check could object to.

Nodes and edges are only ever added by `add` and `link`, and both keep what is
said here about the nodes and edges there are (`Draft.Sound.add`,
`Draft.Sound.link`); what is made of them then keeps it as well. The one
exception is a balancer, whose edges are drawn before its node is there, and
which is therefore taken over in one step (`Draft.Sound.addBalancer`). That a
balancer leads to all outbounds that its selector picks stays true because no
outbound is added later than a balancer.
-/
import ProxyPlan.Proofs.FirstRule
import ProxyPlan.Proofs.Loops
import ProxyPlan.Proofs.Reimport

namespace ProxyPlan

open Relation

/-! ## Layers -/

namespace Graph

/-- The edge joins two nodes that may be joined, and leads to the right. -/
def Rises (g : Graph) (e : Edge) : Prop :=
  ∃ s ∈ g.nodes, ∃ t ∈ g.nodes, s.id = e.source ∧ t.id = e.target ∧
    refusal? s.kind t.kind = none ∧ s.kind.layer < t.kind.layer

/-- Balancers lead to the outbounds that their selectors pick, and to no others. -/
def Picks (g : Graph) : Prop :=
  ∀ b ∈ g.nodes, ∀ c, b.role = .balancer c → ∀ o ∈ g.nodes, o.kind.isOutbound = true →
    ∀ tag, o.tag? = some tag →
      ((∃ e ∈ g.edges, e.source = b.id ∧ e.target = o.id) ↔
        Rule.selectorMatches c.selector tag = true)

/-- The graph is drawn from left to right, every edge once, on one server, and
all of its nodes have tags. -/
structure Layered (g : Graph) : Prop where
  ids : (g.nodes.map Placed.id).Nodup
  edgeIds : (g.edges.map Edge.id).Nodup
  once : (g.edges.map fun e => (e.source, e.target)).Nodup
  rises : ∀ e ∈ g.edges, g.Rises e
  tagged : ∀ n ∈ g.nodes, ∃ tag, n.tag? = some tag ∧ Text.blank tag = false
  ungrouped : ∀ n ∈ g.nodes, n.group = none
  picks : g.Picks

variable {g : Graph}

theorem Rises.grow {e : Edge} (h : g.Rises e) (ns : List Node) (es : List Edge) :
    (g.grow ns es).Rises e := by
  obtain ⟨s, hs, t, ht, hends⟩ := h
  exact ⟨s, List.mem_append_left _ hs, t, List.mem_append_left _ ht, hends⟩

theorem Rises.mem_ids {e : Edge} (h : g.Rises e) : e.source ∈ g.ids ∧ e.target ∈ g.ids := by
  obtain ⟨s, hs, t, ht, hsource, htarget, -⟩ := h
  exact ⟨Graph.mem_ids.mpr ⟨s, hs, hsource⟩, Graph.mem_ids.mpr ⟨t, ht, htarget⟩⟩

theorem Layered.isLink (h : g.Layered) : ∀ e ∈ g.edges, g.isLink e = true := fun e he =>
  isLink_iff.mpr (h.rises e he).mem_ids

/-- Without balancers nothing is picked. -/
theorem picks_of_none (h : ∀ n ∈ g.nodes, n.kind ≠ .balancer) : g.Picks := by
  intro b hb c hc
  exact absurd (congrArg Role.kind hc) (h b hb)

/-- Nodes that are neither balancers nor outbounds do not change what is picked, nor
do edges that leave no balancer. -/
theorem Picks.grow (h : g.Picks) {ns : List Node} {es : List Edge}
    (hns : ∀ n ∈ ns, n.kind ≠ .balancer ∧ n.kind.isOutbound = false)
    (hes : ∀ e ∈ es, ∀ b ∈ g.nodes, b.kind = .balancer → e.source ≠ b.id) :
    (g.grow ns es).Picks := by
  intro b hb c hc o ho hout tag htag
  have hkind : b.kind = .balancer := congrArg Role.kind hc
  have hb : b ∈ g.nodes := by
    refine (List.mem_append.mp hb).resolve_right fun hnew => ?_
    exact (hns b hnew).1 hkind
  have ho : o ∈ g.nodes := by
    refine (List.mem_append.mp ho).resolve_right fun hnew => ?_
    rw [(hns o hnew).2] at hout
    cases hout
  rw [← h b hb c hc o ho hout tag htag]
  constructor
  · rintro ⟨e, he, hends⟩
    refine ⟨e, (List.mem_append.mp he).resolve_right fun hnew => ?_, hends⟩
    exact hes e hnew b hb hkind hends.1
  · rintro ⟨e, he, hends⟩
    exact ⟨e, List.mem_append_left _ he, hends⟩

/-- One balancer more that leads to what its selector picks, and to nothing else. -/
theorem Picks.grow_balancer (h : g.Picks) (hleft : ∀ e ∈ g.edges, e.source ∈ g.ids) {n : Node}
    (hfresh : n.id ∉ g.ids) {c : Balancer} (hrole : n.role = .balancer c) {es : List Edge}
    (hsource : ∀ e ∈ es, e.source = n.id)
    (hpicks : ∀ o ∈ g.nodes, o.kind.isOutbound = true → ∀ tag, o.tag? = some tag →
      ((∃ e ∈ es, e.target = o.id) ↔ Rule.selectorMatches c.selector tag = true)) :
    (g.grow [n] es).Picks := by
  intro b hb c' hc o ho hout tag htag
  -- an outbound is none of the balancers, so it was there before
  replace ho : o ∈ g.nodes := by
    refine (List.mem_append.mp ho).resolve_right fun hnew => ?_
    obtain rfl := List.mem_singleton.mp hnew
    rw [show o.kind = .balancer from congrArg Role.kind hrole] at hout
    cases hout
  rcases List.mem_append.mp hb with hb | hb
  case inl =>
    rw [← h b hb c' hc o ho hout tag htag]
    constructor
    · rintro ⟨e, he, hends⟩
      refine ⟨e, (List.mem_append.mp he).resolve_right fun hnew => ?_, hends⟩
      exact hfresh (mem_ids.mpr ⟨b, hb, hends.1.symm.trans (hsource e hnew)⟩)
    · rintro ⟨e, he, hends⟩
      exact ⟨e, List.mem_append_left _ he, hends⟩
  case inr =>
    obtain rfl := List.mem_singleton.mp hb
    obtain rfl := Role.balancer.inj (hrole.symm.trans hc)
    rw [← hpicks o ho hout tag htag]
    constructor
    · rintro ⟨e, he, hself, htarget⟩
      refine ⟨e, (List.mem_append.mp he).resolve_left fun hold => ?_, htarget⟩
      exact hfresh (hself ▸ hleft e hold)
    · rintro ⟨e, he, htarget⟩
      exact ⟨e, List.mem_append_right _ he, hsource e he, htarget⟩

/-! ### Places -/

/-- Moving nodes leaves a graph as it is. -/
theorem Layered.of_unplaced (h : g.unplaced.Layered) : g.Layered where
  ids := by
    have hids := h.ids
    rw [unplaced_nodes, List.map_map] at hids
    exact hids
  edgeIds := h.edgeIds
  once := h.once
  rises e he := by
    obtain ⟨_, hsource, _, htarget, hends⟩ := h.rises e he
    obtain ⟨s, hs, rfl⟩ := List.mem_map.mp hsource
    obtain ⟨t, ht, rfl⟩ := List.mem_map.mp htarget
    exact ⟨s, hs, t, ht, hends⟩
  tagged n hn := h.tagged n.unplaced (List.mem_map_of_mem hn)
  ungrouped n hn := h.ungrouped n.unplaced (List.mem_map_of_mem hn)
  picks b hb c hc o ho hout tag htag :=
    h.picks b.unplaced (List.mem_map_of_mem hb) c hc o.unplaced (List.mem_map_of_mem ho) hout tag
      htag

end Graph

/-! ## What a check finds -/

namespace Graph.Layered

variable {g : Graph}

/-- The nodes that an edge joins. -/
theorem joins (h : g.Layered) {e : Edge} (he : e ∈ g.edges) :
    ∃ s ∈ g.nodes, ∃ t ∈ g.nodes, g.source? e = some s ∧ g.target? e = some t ∧
      refusal? s.kind t.kind = none ∧ s.kind.layer < t.kind.layer := by
  obtain ⟨s, hs, t, ht, hsource, htarget, hallowed⟩ := h.rises e he
  refine ⟨s, hs, t, ht, ?_, ?_, hallowed⟩
  · rw [source?, ← hsource]
    exact node?_of_mem h.ids hs
  · rw [target?, ← htarget]
    exact node?_of_mem h.ids ht

/-- The column of the node of an identity. -/
def column (g : Graph) (id : String) : Nat := ((g.node? id).map fun n => n.kind.layer).getD 0

theorem column_lt (h : g.Layered) {u v : String} (huv : g.JoinsLocally u v) :
    column g u < column g v := by
  obtain ⟨e, he, -, -, rfl, rfl⟩ := huv
  obtain ⟨s, -, t, -, hs, ht, -, hlayer⟩ := h.joins he
  rw [source?] at hs
  rw [target?] at ht
  simpa [column, hs, ht] using hlayer

/-- From column to column one does not come back. -/
theorem not_onCycle (h : g.Layered) (v : String) : ¬ g.OnCycle v := by
  intro hloop
  have hrises : ∀ w, TransGen g.JoinsLocally v w → column g v < column g w := by
    intro w hw
    induction hw with
    | single hvw => exact h.column_lt hvw
    | tail _ hvw ih => exact ih.trans (h.column_lt hvw)
  exact Nat.lt_irrefl _ (hrises v hloop)

theorem loops_eq_nil (h : g.Layered) : Audit.loops g = [] := by
  refine Audit.loops_eq_nil.mpr ?_
  rintro ⟨id, hloop⟩
  exact h.not_onCycle id hloop

theorem danglingEdges_eq_nil (h : g.Layered) : Audit.danglingEdges g = [] := by
  refine List.map_eq_nil_iff.mpr (List.filter_eq_nil_iff.mpr fun e he => ?_)
  simp [h.isLink e he]

theorem refusedEdges_eq_nil (h : g.Layered) : Audit.refusedEdges g = [] := by
  refine List.flatMap_eq_nil_iff.mpr fun e he => ?_
  obtain ⟨s, -, t, -, hs, ht, hallowed, -⟩ := h.joins he
  simp [hs, ht, hallowed]

/-- There are no devices, which have no tags. -/
theorem deviceProtocols_eq_nil (h : g.Layered) : Audit.deviceProtocols g = [] := by
  refine List.flatMap_eq_nil_iff.mpr fun e he => ?_
  obtain ⟨s, hs, t, -, hsource, htarget, -⟩ := h.joins he
  obtain ⟨tag, htag, -⟩ := h.tagged s hs
  rw [Node.tag?] at htag
  cases hrole : s.role with
  | device c =>
    rw [hrole] at htag
    cases htag
  | _ => simp [hsource, htarget, hrole]

theorem transportsBetweenGroups_eq_nil (h : g.Layered) : Audit.transportsBetweenGroups g = [] := by
  refine List.flatMap_eq_nil_iff.mpr fun e he => ?_
  obtain ⟨s, hs, t, ht, hsource, htarget, -⟩ := h.joins he
  have hgroups : g.crossesGroups e = false := by
    simp [crossesGroups, hsource, htarget, h.ungrouped s hs, h.ungrouped t ht]
  rw [hgroups]
  cases e.transport? <;> rfl

/-- No node lacks a tag. -/
theorem nodeIssues_eq (h : g.Layered) {n : Node} (hn : n ∈ g.nodes) :
    Audit.nodeIssues n = (Audit.roleFindings n.role).map (.atNode n.id) := by
  obtain ⟨tag, htag, hblank⟩ := h.tagged n hn
  simp [Audit.nodeIssues, htag, hblank, Audit.when]

/-- What can be found in a graph that stands in layers. -/
def laterCodes : List String :=
  ["N002", "N003", "N004", "N005", "N006", "N007", "N008", "N009", "S001", "S002", "S003", "S004",
    "S006", "S007", "S008", "R001", "R002"]

theorem among_issues (h : g.Layered) : Audit.Among Audit.Issue.code laterCodes (Audit.issues g) := by
  have hnodes : Audit.Among Audit.Issue.code laterCodes (g.nodes.flatMap Audit.nodeIssues) := by
    intro i hi
    obtain ⟨n, hn, hi⟩ := List.mem_flatMap.mp hi
    rw [h.nodeIssues_eq hn] at hi
    have hrole : Audit.Among Audit.Finding.code laterCodes (Audit.roleFindings n.role) :=
      (Audit.among_roleFindings n.role).mono (by simp [laterCodes])
    have hissues : Audit.Among Audit.Issue.code laterCodes
        ((Audit.roleFindings n.role).map (.atNode n.id)) := hrole.map fun _ => rfl
    exact hissues i hi
  have hstructure : Audit.Among Audit.Issue.code laterCodes (Audit.structureIssues g) := by
    rw [Audit.structureIssues, h.danglingEdges_eq_nil, h.refusedEdges_eq_nil,
      h.deviceProtocols_eq_nil, h.loops_eq_nil]
    simp only [List.nil_append, List.append_nil]
    refine .append (.append (.append (.append (.append (.append ?_ ?_) ?_) ?_) ?_) ?_) ?_
    · exact (Audit.among_sharedTags g.nodes).mono (by simp [laterCodes])
    · exact (Audit.among_sharedPorts g.nodes).mono (by simp [laterCodes])
    all_goals exact Audit.among_atNodes fun _ => by simp [laterCodes, Audit.Finding.code]
  rw [Audit.issues, h.transportsBetweenGroups_eq_nil, List.append_nil]
  exact (hnodes.append hstructure).append
    ((Audit.among_referenceIssues g.nodes).mono (by simp [laterCodes]))

/-- Codes about edges and missing tags are not among what is found. -/
theorem hasCode_eq_false (h : g.Layered) {code : String} (hcode : code ∉ laterCodes) :
    (Audit.check g).hasCode code = false := by
  refine List.any_eq_false.mpr fun i hi heq => hcode ?_
  rw [← beq_iff_eq.mp heq]
  exact h.among_issues i (Audit.mem_all.mp hi)

end Graph.Layered

namespace Import

/-! ## Numbered edges -/

/-- The identity of the edge of a number. -/
def edgeId (number : Nat) : String := "edge-" ++ toString number

theorem edgeId_inj {m n : Nat} (h : edgeId m = edgeId n) : m = n := by
  have hdigits : Nat.toDigits 10 m = Nat.toDigits 10 n := by
    simpa [edgeId] using congrArg String.toList h
  rw [← Nat.ofDigitChars_toDigits (b := 10) (n := m) (by decide) (by decide), hdigits,
    Nat.ofDigitChars_toDigits (by decide) (by decide)]

/-- Edges are numbered from one on, and no two join the same nodes. -/
structure Drawn (edges : List Edge) : Prop where
  numbered : edges.map Edge.id = (List.range edges.length).map fun i => edgeId (i + 1)
  once : (edges.map fun e => (e.source, e.target)).Nodup

theorem Drawn.edgeIds {edges : List Edge} (h : Drawn edges) : (edges.map Edge.id).Nodup := by
  rw [h.numbered]
  exact List.nodup_range.map fun i j hij => Nat.succ.inj (edgeId_inj hij)

namespace Draft

variable {d d' : Draft}

theorem drawn_link (h : Drawn d.edges) (source target : String) (priority : Option UInt32) :
    Drawn (d.link source target priority).edges := by
  rw [link]
  split
  case isTrue => exact h
  case isFalse hlinked =>
    constructor
    case numbered =>
      simp only [List.map_append, List.map_cons, List.map_nil, List.length_append,
        List.length_singleton, List.range_succ, h.numbered]
      rfl
    case once =>
      rw [List.map_append]
      refine List.nodup_append'.mpr ⟨h.once, List.nodup_singleton _, ?_⟩
      intro ends hold hnew
      obtain rfl := List.mem_singleton.mp hnew
      obtain ⟨e, he, hends⟩ := List.mem_map.mp hold
      obtain ⟨hsource, htarget⟩ := Prod.mk.inj hends
      exact hlinked (List.any_eq_true.mpr ⟨e, he, by simp [hsource, htarget]⟩)

theorem drawn_foldl {α : Type} (source target : α → String) (priority : Option UInt32)
    (xs : List α) (h : Drawn d.edges) :
    Drawn (xs.foldl (fun d x => d.link (source x) (target x) priority) d).edges := by
  induction xs generalizing d with
  | nil => exact h
  | cons x rest ih => exact ih (drawn_link h (source x) (target x) priority)

/-! ## Sound drafts -/

/-- The nodes of a draft are numbered and have tags, its edges are drawn from left to
right and once each, and its balancers lead to what they pick. -/
structure Sound (d : Draft) : Prop where
  made : d.Made
  ids : (d.nodes.map Placed.id).Nodup
  tagged : ∀ n ∈ d.nodes, ∃ tag, n.tag? = some tag ∧ Text.blank tag = false
  drawn : Drawn d.edges
  rises : ∀ e ∈ d.edges, d.graph.Rises e
  picks : d.graph.Picks

/-- There are no balancers yet. -/
def Unbalanced (d : Draft) : Prop := ∀ n ∈ d.nodes, n.kind ≠ .balancer

theorem sound_empty : empty.Sound where
  made := made_empty
  ids := .nil
  tagged := by simp [empty]
  drawn := ⟨rfl, .nil⟩
  rises := by simp [empty]
  picks := Graph.picks_of_none (by simp [graph, empty])

/-- Rules are counted and warnings are said without a change to the graph. -/
theorem Sound.of_graph (h : d.Sound) (hgraph : d'.graph = d.graph) : d'.Sound := by
  obtain ⟨nodes, edges, _, _, _, _, _⟩ := d
  obtain ⟨nodes', edges', _, _, _, _, _⟩ := d'
  obtain ⟨rfl, rfl⟩ : nodes' = nodes ∧ edges' = edges := by simpa [graph] using hgraph
  exact ⟨h.made, h.ids, h.tagged, h.drawn, h.rises, h.picks⟩

theorem Sound.warn (h : d.Sound) (w : Warning) : (d.warn w).Sound := h.of_graph rfl

/-! ### Nodes and edges -/

/-- One more node with a tag. An outbound must not come after a balancer, which may
pick it. -/
theorem Sound.add (h : d.Sound) {role : Role}
    (htag : ∃ tag, role.tag? = some tag ∧ Text.blank tag = false) (hkind : role.kind ≠ .balancer)
    (hbefore : role.kind.isOutbound = true → d.Unbalanced) : (d.add role).Sound where
  made := h.made.grow role rfl
  ids := Graph.ids_append_nodup (g := d.graph) h.ids (h.made.nextId_fresh role.kind)
  tagged := List.forall_mem_append.mpr ⟨h.tagged, List.forall_mem_singleton.mpr htag⟩
  drawn := h.drawn
  rises e he := (h.rises e he).grow [d.next role] []
  picks := by
    rw [d.graph_add role]
    by_cases hout : role.kind.isOutbound = true
    · refine Graph.picks_of_none (List.forall_mem_append.mpr ⟨hbefore hout, ?_⟩)
      exact List.forall_mem_singleton.mpr hkind
    · refine h.picks.grow (List.forall_mem_singleton.mpr ⟨hkind, ?_⟩) (by simp)
      exact Bool.not_eq_true _ ▸ hout

/-- One more edge to the right that does not leave a balancer. -/
theorem Sound.link (h : d.Sound) {s t : Node} (hs : s ∈ d.nodes) (ht : t ∈ d.nodes)
    (hallowed : refusal? s.kind t.kind = none) (hlayer : s.kind.layer < t.kind.layer)
    (hkind : s.kind ≠ .balancer) (priority : Option UInt32) :
    (d.link s.id t.id priority).Sound := by
  obtain ⟨es, hes, hdrawn, -⟩ := link_spec d s.id t.id priority
  have hgraph : (d.link s.id t.id priority).graph = d.graph.grow [] es := by
    rw [hes, Graph.grow, List.append_nil]
    rfl
  have hnodes : (d.link s.id t.id priority).nodes = d.nodes := by rw [hes]
  constructor
  case made => rw [Made, hnodes]; exact h.made
  case ids => rw [hnodes]; exact h.ids
  case tagged => rw [hnodes]; exact h.tagged
  case drawn => exact drawn_link h.drawn s.id t.id priority
  case rises =>
    rw [hgraph, hes]
    refine List.forall_mem_append.mpr ⟨fun e he => (h.rises e he).grow [] es, fun e he => ?_⟩
    obtain ⟨hsource, htarget, -⟩ := hdrawn e he
    exact ⟨s, List.mem_append_left _ hs, t, List.mem_append_left _ ht, hsource.symm, htarget.symm,
      hallowed, hlayer⟩
  case picks =>
    rw [hgraph]
    refine h.picks.grow (by simp) fun e he b hb hbalancer hsource => ?_
    rw [(hdrawn e he).1] at hsource
    obtain rfl : s = b := List.inj_on_of_nodup_map h.ids hs hb hsource
    exact hkind hbalancer

@[simp] theorem link_nodes (source target : String) (priority : Option UInt32) :
    (d.link source target priority).nodes = d.nodes := by
  obtain ⟨es, hes, -⟩ := link_spec d source target priority
  rw [hes]

@[simp] theorem linkAll_nodes (sources : List String) (target : String)
    (priority : Option UInt32) : (d.linkAll sources target priority).nodes = d.nodes := by
  induction sources generalizing d with
  | nil => rfl
  | cons source rest ih => exact ih.trans (link_nodes source target priority)

/-- Edges from inbounds to one node that they may lead to. -/
theorem Sound.linkAll (h : d.Sound) {sources : List String}
    (hsources : ∀ id ∈ sources, ∃ n ∈ d.nodes, n.id = id ∧ n.kind = .inbound) {t : Node}
    (ht : t ∈ d.nodes) (hallowed : Kind.inbound.mayLead t.kind = true)
    (priority : Option UInt32) : (d.linkAll sources t.id priority).Sound := by
  induction sources generalizing d with
  | nil => exact h
  | cons source rest ih =>
    obtain ⟨s, hs, rfl, hkind⟩ := hsources source (by simp)
    have hlayer : refusal? s.kind t.kind = none ∧ s.kind.layer < t.kind.layer := by
      rw [hkind]
      revert hallowed
      cases t.kind <;> decide
    have hlinked := h.link hs ht hlayer.1 hlayer.2 (by rw [hkind]; decide) priority
    refine ih hlinked (fun id hid => ?_) (by rwa [link_nodes])
    rw [link_nodes]
    exact hsources id (by simp [hid])

/-! ### Entries -/

theorem not_blank_tagOr (tag : String) (k : Kind) (number : Nat) :
    Text.blank (tagOr tag (numberedId k number)) = false :=
  (tight_tagOr tag (tight_numberedId k number)).1

theorem not_blank_ruleTag (number : Nat) (r : Document.Rule) :
    Text.blank (ruleTag number r) = false := by
  rw [ruleTag]
  cases hnamed : r.ruleTag.filter fun tag => !Text.blank tag with
  | some tag => simpa using (Option.filter_eq_some_iff.mp hnamed).2
  | none =>
    have hfirst : ("rule-" ++ toString number).toList =
        'r' :: ("ule-" ++ toString number).toList := by simp
    rw [Option.getD_none, Text.blank, hfirst, List.all_cons]
    rfl

theorem Unbalanced.add (h : d.Unbalanced) {role : Role} (hkind : role.kind ≠ .balancer) :
    (d.add role).Unbalanced :=
  List.forall_mem_append.mpr ⟨h, List.forall_mem_singleton.mpr hkind⟩

theorem Unbalanced.addInbound (h : d.Unbalanced) (i : Document.Inbound) :
    (d.addInbound i).Unbalanced := by
  rw [Draft.addInbound]
  split
  · exact h.add (by simp [Role.kind])
  · exact h

theorem Unbalanced.addOutbound (h : d.Unbalanced) (o : Document.Outbound) :
    (d.addOutbound o).Unbalanced := by
  rw [Draft.addOutbound]
  split
  case h_1 | h_2 => exact h.add (by simp [Role.kind])
  case h_3 => exact h

theorem Sound.addInbound (h : d.Sound) (i : Document.Inbound) : (d.addInbound i).Sound := by
  rw [Draft.addInbound]
  split
  case h_1 protocol _ =>
    have hadded : (d.add (.inbound (inboundOf protocol (d.nextId .inbound) i))).Sound :=
      h.add ⟨_, rfl, not_blank_tagOr i.tag .inbound _⟩ (by simp [Role.kind])
        (by simp [Role.kind, Kind.isOutbound])
    exact hadded.of_graph rfl
  case h_2 => exact h.warn _

/-- Outbounds are taken over before there are balancers. -/
theorem Sound.addOutbound (h : d.Sound) (hbefore : d.Unbalanced) (o : Document.Outbound) :
    (d.addOutbound o).Sound := by
  rw [Draft.addOutbound]
  split
  case h_1 protocol _ =>
    have hadded : (d.add (.terminal ⟨tagOr o.tag (d.nextId .terminal), protocol⟩)).Sound :=
      h.add ⟨_, rfl, not_blank_tagOr o.tag .terminal _⟩ (by simp [Role.kind]) fun _ => hbefore
    exact hadded.of_graph rfl
  case h_2 protocol _ _ =>
    have hadded : (d.add (.proxy (proxyOf protocol (d.nextId .proxy) o))).Sound :=
      h.add ⟨_, rfl, not_blank_tagOr o.tag .proxy _⟩ (by simp [Role.kind]) fun _ => hbefore
    exact hadded.of_graph rfl
  case h_3 => exact h.warn _

theorem allowed_of_picked {selector : List String} {n : Node}
    (h : isPicked selector n = true) :
    refusal? .balancer n.kind = none ∧ Kind.balancer.layer < n.kind.layer := by
  obtain ⟨hout, -⟩ := Bool.and_eq_true_iff.mp h
  revert hout
  cases n.kind <;> decide

/-- A balancer leads to what it picks, and to nothing else. -/
theorem Sound.addBalancer (h : d.Sound) (b : Document.Balancer) : (d.addBalancer b).Sound := by
  obtain ⟨es, hgraph, -, hdrawn, hall⟩ := addBalancer_spec b d
  have hnodes : (d.addBalancer b).nodes = d.nodes ++ [d.next
      (.balancer ⟨tagOr b.tag (d.nextId .balancer), (strategyOf b).1, b.selector⟩)] :=
    congrArg Graph.nodes hgraph
  have hfresh := h.made.nextId_fresh .balancer
  have hrises : ∀ e ∈ d.edges ++ es, (d.addBalancer b).graph.Rises e := by
    rw [hgraph]
    refine List.forall_mem_append.mpr ⟨fun e he => (h.rises e he).grow _ es, fun e he => ?_⟩
    obtain ⟨hsource, n, hn, hpicked, htarget⟩ := hdrawn e he
    exact ⟨_, List.mem_append_right _ (List.mem_singleton.mpr rfl), n, List.mem_append_left _ hn,
      hsource.symm, htarget.symm, allowed_of_picked hpicked⟩
  constructor
  case made => exact h.made.grow _ hnodes
  case ids =>
    rw [hnodes]
    exact Graph.ids_append_nodup (g := d.graph) h.ids hfresh
  case tagged =>
    rw [hnodes]
    exact List.forall_mem_append.mpr ⟨h.tagged, List.forall_mem_singleton.mpr
      ⟨_, rfl, not_blank_tagOr b.tag .balancer _⟩⟩
  case drawn =>
    exact drawn_foldl (d := { d with warnings := d.warnings ++ (strategyOf b).2 })
      (fun _ => d.nextId .balancer) id none (d.idsOf (isPicked b.selector)) h.drawn
  case rises =>
    intro e he
    refine hrises e ?_
    rwa [← show (d.addBalancer b).edges = d.edges ++ es from congrArg Graph.edges hgraph]
  case picks =>
    rw [hgraph]
    have hleft : ∀ e ∈ d.edges, e.source ∈ d.graph.ids := fun e he => (h.rises e he).mem_ids.1
    refine h.picks.grow_balancer hleft hfresh rfl (fun e he => (hdrawn e he).1) ?_
    intro o ho hout tag htag
    have hpicked : isPicked b.selector o = true ↔ Rule.selectorMatches b.selector tag = true := by
      simp [isPicked, hout, htag]
    rw [← hpicked]
    constructor
    · rintro ⟨e, he, htarget⟩
      obtain ⟨-, m, hm, hmpicked, hends⟩ := hdrawn e he
      obtain rfl : m = o := List.inj_on_of_nodup_map h.ids hm ho (hends.symm.trans htarget)
      exact hmpicked
    · intro hpicked
      obtain ⟨e, he, hsource, htarget⟩ := hall o ho hpicked
      refine ⟨e, (List.mem_append.mp he).resolve_left fun hold => ?_, htarget⟩
      exact hfresh (hsource ▸ hleft e hold)

/-- A rule is for inbounds that are there. -/
theorem of_mem_sources {listed : List String} {id : String} (h : id ∈ d.sources listed) :
    ∃ n ∈ d.nodes, n.id = id ∧ n.kind = .inbound := by
  rw [sources] at h
  split at h
  · obtain ⟨n, hn, rfl⟩ := List.mem_map.mp h
    obtain ⟨hn, hkind⟩ := List.mem_filter.mp hn
    exact ⟨n, hn, rfl, of_decide_eq_true hkind⟩
  · obtain ⟨tag, -, hid⟩ := List.mem_filterMap.mp h
    obtain ⟨n, hn, hself, hkind, -⟩ := of_latest? hid
    exact ⟨n, hn, hself, of_decide_eq_true hkind⟩

/-- A rule leads to the last outbound or balancer that has the tag that it asks for. -/
theorem last_of_target {number : Nat} {r : Document.Rule} {id : String}
    (h : d.target number r = .ok id) : ∃ n, n.id = id ∧ r.leadsToLast d.nodes n := by
  simp only [target] at h
  split at h
  case h_1 tag houtbound =>
    have hleads : ∀ n : Node, r.leadsTo n ↔ n.kind.isOutbound = true ∧ n.tag? = some tag := by
      intro n
      rw [Document.Rule.leadsTo, houtbound]
    split at h <;> cases h
    case h_1 hfound =>
      obtain ⟨before, n, after, hnodes, hself, hn, hlast⟩ := last_of_latest? hfound
      refine ⟨n, hself, before, after, hnodes, (hleads n).mpr hn, ?_⟩
      exact fun m hm hmleads => hlast m hm ((hleads m).mp hmleads)
  case h_2 tag houtbound hbalancer =>
    have hleads : ∀ n : Node, r.leadsTo n ↔ decide (n.kind = .balancer) = true ∧ n.tag? = some tag := by
      intro n
      rw [Document.Rule.leadsTo, houtbound, hbalancer, decide_eq_true_eq]
      constructor
      · rintro ⟨hkind, -, htag⟩
        exact ⟨hkind, htag.symm⟩
      · rintro ⟨hkind, htag⟩
        exact ⟨hkind, by rw [htag]; rfl, htag.symm⟩
    split at h <;> cases h
    case h_1 hfound =>
      obtain ⟨before, n, after, hnodes, hself, hn, hlast⟩ := last_of_latest? hfound
      refine ⟨n, hself, before, after, hnodes, (hleads n).mpr hn, ?_⟩
      exact fun m hm hmleads => hlast m hm ((hleads m).mp hmleads)
  case h_3 => cases h

/-- A rule leads to an outbound or a balancer that is there and has the tag that it
asks for. -/
theorem of_target {number : Nat} {r : Document.Rule} {id : String}
    (h : d.target number r = .ok id) : ∃ n ∈ d.nodes, n.id = id ∧ r.leadsTo n := by
  obtain ⟨n, hself, hlast⟩ := last_of_target h
  exact ⟨n, hlast.mem, hself, hlast.leadsTo⟩

/-- What rules lead to may follow a rule and an inbound. -/
theorem allowed_of_leadsTo {r : Document.Rule} {n : Node} (h : r.leadsTo n) :
    (refusal? .routing n.kind = none ∧ Kind.routing.layer < n.kind.layer) ∧
      Kind.inbound.mayLead n.kind = true := by
  have hkind : n.kind.isOutbound = true ∨ n.kind = .balancer := by
    rw [Document.Rule.leadsTo] at h
    split at h
    · exact .inl h.1
    · exact .inr h.1
  revert hkind
  cases n.kind <;> decide

theorem Sound.addRule (h : d.Sound) (overNode : Bool) (index : Nat) (r : Document.Rule) :
    (d.addRule overNode index r).Sound := by
  rw [Draft.addRule]
  split
  case h_1 w _ => exact h.warn w
  case h_2 target htarget =>
    let counted : Draft :=
      { d with
        rules := d.rules + 1
        warnings := d.warnings ++ d.unknownInbounds (index + 1) (r.inboundTag.getD []) }
    have hcounted : counted.Sound := h.of_graph rfl
    have hsources : ∀ id ∈ d.sources (r.inboundTag.getD []),
        ∃ n ∈ counted.nodes, n.id = id ∧ n.kind = .inbound := fun id hid => of_mem_sources hid
    obtain ⟨t, ht, rfl, hleads⟩ := of_target htarget
    obtain ⟨⟨hallowed, hlayer⟩, hmay⟩ := allowed_of_leadsTo hleads
    show (counted.lead overNode index r (d.sources (r.inboundTag.getD [])) t.id).Sound
    cases overNode with
    | false => exact hcounted.linkAll hsources ht hmay _
    | true =>
      let c : Role := .routing ⟨ruleTag (index + 1) r, predicatesOf r⟩
      have hadded : (counted.add c).Sound :=
        hcounted.add ⟨_, rfl, not_blank_ruleTag (index + 1) r⟩ (by simp [c, Role.kind])
          (by simp [c, Role.kind, Kind.isOutbound])
      have hnew : counted.next c ∈ (counted.add c).nodes :=
        List.mem_append_right _ (List.mem_singleton.mpr rfl)
      have hentered := hadded.linkAll (t := counted.next c) (fun id hid => by
        obtain ⟨n, hn, hself⟩ := hsources id hid
        exact ⟨n, List.mem_append_left _ hn, hself⟩) hnew rfl (Text.word? index)
      refine hentered.link (s := counted.next c) (t := t) ?_ ?_ hallowed hlayer
        (by simp [c, Node.kind, next, Role.kind]) none
      · rw [linkAll_nodes]
        exact hnew
      · rw [linkAll_nodes]
        exact List.mem_append_left _ ht

end Draft

/-! ## Graphs that are taken over -/

/-- The draft of a document before its rules are taken over. -/
def unruled (doc : Json) : Draft :=
  Draft.empty
    |> Draft.addAll Document.Inbound.codec .inbounds (fun _ => Draft.addInbound) 0
      (itemsOf "inbounds" doc)
    |> Draft.addAll Document.Outbound.codec .outbounds (fun _ => Draft.addOutbound) 0
      (itemsOf "outbounds" doc)
    |> Draft.addAll Document.Balancer.codec .balancers (fun _ => Draft.addBalancer) 0
      (itemsOf "balancers" ((doc.get? "routing").getD .null))

/-- Rules are taken over last. -/
theorem draft_eq (o : Options) (doc : Json) :
    draft o doc = Draft.addAll Document.Rule.codec .rules (Draft.addRule o.ruleNodes) 0
      (itemsOf "rules" ((doc.get? "routing").getD .null)) (unruled doc) := rfl

theorem sound_unruled (doc : Json) : (unruled doc).Sound := by
  have hbefore : ∀ d w, Draft.Sound d ∧ d.Unbalanced → (d.warn w).Sound ∧ (d.warn w).Unbalanced :=
    fun d w h => ⟨h.1.warn w, h.2⟩
  have hempty : Draft.empty.Sound ∧ Draft.empty.Unbalanced :=
    ⟨Draft.sound_empty, by simp [Draft.Unbalanced, Draft.empty]⟩
  have hinbounds := Draft.addAll_keeps (c := Document.Inbound.codec) .inbounds hbefore
    (fun _ i d h => ⟨h.1.addInbound i, h.2.addInbound i⟩) 0 (itemsOf "inbounds" doc) hempty
  have houtbounds := Draft.addAll_keeps (c := Document.Outbound.codec) .outbounds hbefore
    (fun _ out d h => ⟨h.1.addOutbound h.2 out, h.2.addOutbound out⟩) 0 (itemsOf "outbounds" doc)
    hinbounds
  exact Draft.addAll_keeps .balancers (fun d w h => h.warn w) (fun _ b d h => h.addBalancer b) 0 _
    houtbounds.1

/-- Every document gives a sound draft. -/
theorem sound_draft (o : Options) (doc : Json) : (draft o doc).Sound := by
  rw [draft_eq]
  exact Draft.addAll_keeps .rules (fun d w h => h.warn w) (fun index r d h => h.addRule _ index r)
    0 _ (sound_unruled doc)

/-- The nodes of a draft have not been placed. -/
theorem Draft.Made.unplaced {d : Draft} (h : d.Made) : d.graph.unplaced = d.graph := by
  have hnodes : d.nodes.map Node.unplaced = d.nodes := by
    refine (List.map_congr_left fun n hn => ?_).trans (List.map_id _)
    obtain ⟨number, -, hn⟩ := h n hn
    rw [hn]
    rfl
  rw [Graph.unplaced, Draft.graph, hnodes]

theorem Draft.Sound.layered {d : Draft} (h : d.Sound) : d.graph.Layered where
  ids := h.ids
  edgeIds := h.drawn.edgeIds
  once := h.drawn.once
  rises := h.rises
  tagged := h.tagged
  ungrouped n hn := by
    obtain ⟨number, -, hn⟩ := h.made n hn
    rw [hn]
    rfl
  picks := h.picks

/-- What is handed over is the graph of the draft, perhaps laid out. -/
theorem unplaced_outcome {d : Draft} (h : d.Made) (o : Options) :
    (Graph.mk (d.outcome o).nodes (d.outcome o).edges).unplaced = d.graph := by
  rw [← h.unplaced]
  simp only [Graph.unplaced, Draft.outcome, Draft.graph]
  split
  · rw [Topology.unplaced_layout]
  · rfl

theorem layered_outcome {text : String} {o : Options} {out : Outcome}
    (h : config text o = .ok out) : (Graph.mk out.nodes out.edges).Layered := by
  obtain ⟨doc, rfl⟩ := exists_draft h
  have hsound := sound_draft o doc
  refine Graph.Layered.of_unplaced ?_
  rw [unplaced_outcome hsound.made]
  exact hsound.layered

/-- Whatever is taken over stands in layers: identities do not repeat, every edge is
drawn once, joins two nodes that may be joined and leads to the right, no tag is
blank, and balancers lead to what they pick. Nothing is found in it that concerns
missing tags, ends of edges, transports or loops. -/
theorem config_layered {text : String} {o : Options} {out : Outcome}
    (h : config text o = .ok out) :
    (Graph.mk out.nodes out.edges).Layered ∧
      ∀ code, (code ∈ ["N001", "S005", "S009", "S010", "S011"] ∨ code.toList.head? = some 'T') →
        (Audit.check ⟨out.nodes, out.edges⟩).hasCode code = false := by
  have hlayered := layered_outcome h
  refine ⟨hlayered, fun code hcode => hlayered.hasCode_eq_false fun hlater => ?_⟩
  have hnone : ∀ c ∈ Graph.Layered.laterCodes,
      c ∉ ["N001", "S005", "S009", "S010", "S011"] ∧ c.toList.head? ≠ some 'T' := by decide
  exact (hnone code hlater).1.elim <| hcode.resolve_right (hnone code hlater).2

/-! ### An instance -/

/-- A balancer that picks two of three outbounds, and a rule that leads to it. -/
def balanced : String :=
  "\x7b\"inbounds\": [\x7b\"port\": 1080, \"protocol\": \"socks\", \"tag\": \"in\"\x7d], " ++
    "\"outbounds\": [\x7b\"protocol\": \"freedom\", \"tag\": \"exit-a\"\x7d, " ++
    "\x7b\"protocol\": \"blackhole\", \"tag\": \"block\"\x7d, " ++
    "\x7b\"protocol\": \"freedom\", \"tag\": \"exit-b\"\x7d], " ++
    "\"routing\": \x7b\"balancers\": [\x7b\"tag\": \"either\", \"selector\": [\"exit-\"]\x7d], " ++
    "\"rules\": [\x7b\"balancerTag\": \"either\"\x7d]\x7d\x7d"

theorem config_layered_balanced :
    ∃ out, config balanced .usual = .ok out ∧
      out.edges.map (fun e => (e.source, e.target)) =
        [("balancer-5", "outbound-terminal-2"), ("balancer-5", "outbound-terminal-4"),
          ("inbound-1", "routing-6"), ("routing-6", "balancer-5")] ∧
      (Graph.mk out.nodes out.edges).Layered ∧
      (Audit.check ⟨out.nodes, out.edges⟩).hasCode "S009" = false := by
  have hread : (config balanced .usual).toOption.map (fun out =>
      out.edges.map fun e => (e.source, e.target)) =
        some [("balancer-5", "outbound-terminal-2"), ("balancer-5", "outbound-terminal-4"),
          ("inbound-1", "routing-6"), ("routing-6", "balancer-5")] := by
    decide +kernel
  cases hout : config balanced .usual with
  | error e =>
    rw [hout] at hread
    cases hread
  | ok out =>
    rw [hout] at hread
    obtain ⟨hlayered, hcodes⟩ := config_layered hout
    exact ⟨out, rfl, Option.some.inj hread, hlayered, hcodes "S009" (by decide)⟩

end Import
end ProxyPlan
