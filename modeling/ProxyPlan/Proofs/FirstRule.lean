/-
ProxyPlan.Proofs.FirstRule — a document routes a request as the graph does.

Two things decide where a request goes. In the graph an inbound tries its own
links, best first, and passes the request to the first routing node that
matches, else past the rules. In the document all rules of all routing nodes
stand in one list, and the first rule that accepts the request decides.

They agree on graphs whose rules stand in one tier (`Tiered`). The order of the
document is the order of all links from inbounds to routing nodes; since
sorting is stable, the links of one inbound stand in it in the order in which
that inbound tries them, and the links of other inbounds lead to rules that do
not match (`find?_entered`). Each routing node emits a rule for every target,
all with the same predicates, so only its first link counts, which is the link
that the walk takes.
-/
import ProxyPlan.Proofs.Audit
import ProxyPlan.Proofs.Groups
import ProxyPlan.Proofs.Growth
import ProxyPlan.Proofs.RuleMeaning
import ProxyPlan.Proofs.Walk

namespace ProxyPlan

/-- The rules of a topology stand in one tier, between inbounds and targets,
and no rule can match what comes in through an inbound that does not lead to
it. -/
structure Tiered (t : Topology) : Prop where
  ids : (t.nodes.map Placed.id).Nodup
  ungrouped : ∀ n ∈ t.nodes, Node.group n = none
  clean : ∀ code ∈ ["N001", "S001", "S010", "S011"],
    (Audit.check t.graph).hasCode code = false
  trimmed : ∀ n ∈ t.nodes, ∀ c, Node.inbound? n = some c → Text.trim c.tag = c.tag
  flat : ∀ e ∈ t.edges, t.graph.kind? e.source = some .routing →
    t.graph.kind? e.target ≠ some .routing
  leads : ∀ n ∈ t.nodes, n.kind = .routing → ∃ e ∈ t.edges, e.source = n.id
  entered : ∀ n ∈ t.nodes, n.kind = .routing →
    ∃ e ∈ t.edges, e.target = n.id ∧ t.graph.kind? e.source = some .inbound
  separate : (t.nodes.filter fun n => n.kind = .inbound).length = 1 ∨
    ∀ n ∈ t.nodes, ∀ c, Node.routing? n = some c → ∃ m ∈ t.nodes, ∃ d, Node.inbound? m = some d ∧
      c.predicates.inboundTag? = some d.tag ∧
      ∀ e ∈ t.edges, e.target = n.id → t.graph.kind? e.source = some .inbound → e.source = m.id

/-- The node is what the rule sends requests to. -/
def Document.Rule.leadsTo (r : Document.Rule) (n : Node) : Prop :=
  match r.outboundTag with
  | some tag => n.kind.isOutbound = true ∧ n.tag? = some tag
  | none => n.kind = .balancer ∧ n.tag?.isSome = true ∧ r.balancerTag = n.tag?

/-- Of the nodes that the rule could send requests to, this one is the last. -/
def Document.Rule.leadsToLast (r : Document.Rule) (nodes : List Node) (n : Node) : Prop :=
  ∃ before after, nodes = before ++ n :: after ∧ r.leadsTo n ∧ ∀ m ∈ after, ¬ r.leadsTo m

theorem Document.Rule.leadsToLast.mem {r : Document.Rule} {nodes : List Node} {n : Node}
    (h : r.leadsToLast nodes n) : n ∈ nodes := by
  obtain ⟨before, after, rfl, -⟩ := h
  simp

theorem Document.Rule.leadsToLast.leadsTo {r : Document.Rule} {nodes : List Node} {n : Node}
    (h : r.leadsToLast nodes n) : r.leadsTo n := by
  obtain ⟨before, after, -, hleads, -⟩ := h
  exact hleads

namespace Compile

/-- An inbound is no target, and neither is a rule. -/
theorem ne_of_isTarget {i n : Node} (hk : i.kind = .inbound) (hn : (target? n).isSome = true) :
    n ≠ i ∧ n.kind ≠ .routing := by
  rw [target?_isSome] at hn
  constructor
  · rintro rfl
    simp [hk, Kind.isOutbound] at hn
  · intro hr
    simp [hr, Kind.isOutbound] at hn

/-- The rule that is made for a link leads to the node that the link leads to. -/
theorem rule_leadsTo {n : Node} {target : Target} (h : target? n = some target)
    (p : Predicates) : (rule p target).leadsTo n := by
  cases target with
  | outbound tag => exact target?_eq_outbound.mp h
  | balancer tag =>
    obtain ⟨hkind, htag⟩ := target?_eq_balancer.mp h
    exact ⟨hkind, by rw [htag]; rfl, htag.symm⟩

theorem targetsOf_eq (g : Graph) (id : String) :
    targetsOf g id = (Trace.exits g id).filterMap fun x => target? x.2 := by
  rw [targetsOf, Trace.exits, List.filterMap_filterMap]
  refine List.filterMap_congr fun e _ => ?_
  cases g.target? e <;> rfl

end Compile

namespace Tiered

open Compile Trace

variable {t : Topology} (h : Tiered t)

/-! ## Links of a tiered topology -/

include h

theorem linked (e : Edge) (he : e ∈ t.edges) : t.graph.isLink e = true :=
  Audit.isLink_of_not_s011 (h.clean "S011" (by simp)) he

theorem node?_id {n : Node} (hn : n ∈ t.nodes) : t.graph.node? n.id = some n :=
  Graph.node?_of_mem h.ids hn

/-- A link leads from a kind to one that it may lead to. -/
theorem mayLead {n : Node} (hn : n ∈ t.nodes) {x : Exit} (hx : x ∈ exits t.graph n.id) :
    n.kind.mayLead x.2.kind = true := by
  obtain ⟨he, hs, -, ht⟩ := mem_exits.mp hx
  refine Audit.mayLead_of_not_s010 (h.clean "S010" (by simp)) he ?_ ht
  rw [Graph.source?, hs, h.node?_id hn]

/-- An inbound leads to a rule or to a target. -/
theorem target_of_inbound {n : Node} (hn : n ∈ t.nodes) (hk : n.kind = .inbound) {x : Exit}
    (hx : x ∈ exits t.graph n.id) : (target? x.2).isSome = leadsPastRules x := by
  have hlead := h.mayLead hn hx
  rw [hk] at hlead
  rw [target?_isSome, leadsPastRules]
  cases hkind : x.2.kind <;> rw [hkind] at hlead <;> first | rfl | cases hlead

/-- A rule leads to a target. -/
theorem target_of_routing {n : Node} (hn : n ∈ t.nodes) (hk : n.kind = .routing) {x : Exit}
    (hx : x ∈ exits t.graph n.id) : (target? x.2).isSome = true := by
  have hlead := h.mayLead hn hx
  obtain ⟨he, hs, -, ht⟩ := mem_exits.mp hx
  have hflat := h.flat x.1 he (Graph.kind?_eq_some.mpr ⟨n, by rw [hs, h.node?_id hn], hk⟩)
  have hnot : x.2.kind ≠ .routing := fun hr => hflat (Graph.kind?_eq_some.mpr ⟨x.2, ht, hr⟩)
  rw [hk] at hlead
  rw [target?_isSome]
  cases hkind : x.2.kind <;> rw [hkind] at hlead <;> first | rfl | exact absurd hkind hnot | cases hlead

/-- A rule has a first link, and it leads to a target. -/
theorem first_exit {n : Node} (hn : n ∈ t.nodes) (hk : n.kind = .routing) :
    ∃ x rest target, exits t.graph n.id = x :: rest ∧ target? x.2 = some target ∧
      (targetsOf t.graph n.id).head? = some target := by
  obtain ⟨e, he, hs⟩ := h.leads n hn hk
  have hlink := h.linked e he
  obtain ⟨-, m, -, hm⟩ := Graph.isLink_iff_ends.mp hlink
  have hx : (e, m) ∈ exits t.graph n.id := mem_exits.mpr ⟨he, hs, hlink, hm⟩
  cases hexits : exits t.graph n.id with
  | nil => simp [hexits] at hx
  | cons x rest =>
    have htarget := h.target_of_routing hn hk (x := x) (by simp [hexits])
    obtain ⟨target, htarget⟩ := Option.isSome_iff_exists.mp htarget
    exact ⟨x, rest, target, rfl, htarget, by simp [targetsOf_eq, hexits, htarget]⟩

/-! ## The rule that an inbound finds -/

theorem routingOf?_eq (id : String) :
    routingOf? t.graph id = (t.graph.node? id).bind Node.routing? :=
  Compile.routingOf?_eq h.ids id

/-- All routing nodes are entered. -/
theorem routingOrder_eq : routingOrder t.graph = Compile.entered t.graph := by
  have hall : ∀ id ∈ routingIds t.graph, id ∈ Compile.entered t.graph := by
    intro id hid
    obtain ⟨n, hn, hk, rfl⟩ := mem_routingIds.mp hid
    obtain ⟨e, he, ht, hs⟩ := h.entered n hn hk
    have htk : t.graph.kind? e.target = some .routing :=
      Graph.kind?_eq_some.mpr ⟨n, by rw [ht, h.node?_id hn], hk⟩
    exact mem_entered.mpr ⟨e, List.mem_filter.mpr ⟨he, by simp [isEntry, hs, htk]⟩, ht⟩
  show Compile.entered t.graph ++ Order.firsts (Compile.entered t.graph) (routingIds t.graph) = _
  rw [Order.firsts_eq_nil hall, List.append_nil]

end Tiered

/-! ## What the rules of a document answer -/

namespace Compile

/-- The routing node of an identity matches a request. -/
def answers [Rule.Patterns] (g : Graph) (s : Rule.Subject) (id : String) : Bool :=
  (routingOf? g id).any fun c => Rule.predicatesMatch c.predicates s

variable {g : Graph} {i : Node}

/-- Where there is one inbound, all routing nodes are entered from it. -/
theorem source_of_isEntry (hone : (g.nodes.filter fun n => n.kind = .inbound).length = 1)
    (hi : i ∈ g.nodes) (hk : i.kind = .inbound) {e : Edge} (hentry : isEntry g e = true) :
    e.source = i.id := by
  simp only [isEntry, Bool.and_eq_true, decide_eq_true_eq] at hentry
  obtain ⟨m, hm, hmk⟩ := Graph.kind?_eq_some.mp hentry.1
  have hin : ∀ n ∈ g.nodes, n.kind = .inbound → n ∈ g.nodes.filter fun n => n.kind = .inbound :=
    fun n hn hk => List.mem_filter.mpr ⟨hn, by simpa using hk⟩
  obtain ⟨k, hall⟩ := List.length_eq_one_iff.mp hone
  have him := hin i hi hk
  have hmm := hin m (Graph.node?_mem hm) hmk
  rw [hall, List.mem_singleton] at him hmm
  rw [← Graph.node?_id hm, hmm, him]

/-- If the routing nodes that answer a request are entered from one inbound only,
the first of them is the one that this inbound finds. -/
theorem find?_entered [Rule.Patterns] (hids : (g.nodes.map Placed.id).Nodup)
    (hlinked : ∀ e ∈ g.edges, g.isLink e = true) (hi : i ∈ g.nodes) (hk : i.kind = .inbound)
    {s : Rule.Subject} (honly : ∀ e ∈ g.edges, isEntry g e = true →
      answers g s e.target = true → e.source = i.id) :
    (entered g).find? (answers g s) =
      ((Trace.exits g i.id).find? (Trace.leadsToMatch s)).map fun x => x.2.id := by
  have hik : g.kind? i.id = some .inbound :=
    Graph.kind?_eq_some.mpr ⟨i, Graph.node?_of_mem hids hi, hk⟩
  let found : Edge → Bool := fun e => (g.target? e).any fun n => Trace.leadsToMatch s (e, n)
  have hfound : ∀ e, found e = true ↔ g.kind? e.target = some .routing ∧
      answers g s e.target = true := by
    intro e
    simp only [found, answers, routingOf?_eq hids, Graph.target?, Trace.leadsToMatch]
    cases hn : g.node? e.target with
    | none => simp
    | some n =>
      cases hr : Node.routing? n with
      | none => simp [hr]
      | some d => simp [hr, Graph.kind?, hn, Node.kind_of_routing? hr]
  -- both look for the first edge of one kind among all edges, best first
  have hsame : ∀ e ∈ Graph.byPriority g.edges,
      (decide (isEntry g e = true ∧ (answers g s ∘ Edge.target) e = true)) =
        decide ((e.source == i.id && g.isLink e) = true ∧ found e = true) := by
    intro e he
    rw [Graph.mem_byPriority] at he
    refine decide_eq_decide.mpr ?_
    rw [hfound, Function.comp_apply, Bool.and_eq_true, beq_iff_eq]
    constructor
    · rintro ⟨hentry, ha⟩
      have hsource := honly e he hentry ha
      simp only [isEntry, Bool.and_eq_true, decide_eq_true_eq] at hentry
      exact ⟨⟨hsource, hlinked e he⟩, hentry.2, ha⟩
    · rintro ⟨⟨hsource, -⟩, hk, ha⟩
      exact ⟨by simp [isEntry, hsource, hik, hk], ha⟩
  have hfirst : (Graph.byPriority (g.edges.filter (isEntry g))).find?
      (answers g s ∘ Edge.target) = (g.outgoing i.id).find? found := by
    rw [← Graph.filter_byPriority, List.find?_filter, Graph.outgoing, Graph.linksThat,
      ← Graph.filter_byPriority, List.find?_filter]
    exact Order.find?_congr hsame
  rw [entered, Order.find?_distinct, List.find?_map]
  have hexits : (Trace.exits g i.id).find? (Trace.leadsToMatch s) =
      ((g.outgoing i.id).find? found).bind fun e => (g.target? e).map fun n => (e, n) := by
    rw [Trace.exits, List.find?_filterMap]
    congr 1
    refine Order.find?_congr fun e _ => ?_
    simp only [found]
    cases g.target? e <;> rfl
  rw [hexits, hfirst]
  cases hf : (g.outgoing i.id).find? found with
  | none => rfl
  | some e =>
    obtain ⟨hk, -⟩ := (hfound e).mp (by simpa using List.find?_some hf)
    obtain ⟨n, hn, -⟩ := Graph.kind?_eq_some.mp hk
    simp [Graph.target?, hn, Graph.node?_id hn]

end Compile

namespace Tiered

open Compile Trace

variable {t : Topology} (h : Tiered t) {i : Node} {c : Inbound} (hi : i ∈ t.nodes)
  (hc : Node.inbound? i = some c) {s : Rule.Subject} (hs : s.inboundTag = c.tag)

include h hi hc

theorem tag_not_blank : Text.blank c.tag = false :=
  Audit.not_blank_of_not_n001 (h.clean "N001" (by simp)) hi (Node.tag?_of_inbound? hc)

theorem plainTag : Audit.plainTag? i = some c.tag := by
  rw [Audit.plainTag?, Node.tag?_of_inbound? hc]
  exact Text.nonBlank?_self (h.tag_not_blank hi hc) (h.trimmed i hi c hc)

/-- An inbound is known by its tag. -/
theorem inbound_unique {m : Node} {d : Inbound} (hm : m ∈ t.nodes) (hd : Node.inbound? m = some d)
    (htag : d.tag = c.tag) : m = i :=
  Audit.eq_of_not_s001 (h.clean "S001" (by simp)) hm hi (h.plainTag hm hd)
    (htag ▸ h.plainTag hi hc)

include hs

variable [Rule.Patterns]

/-- A rule that answers a request is entered from the inbound of the request
only. -/
theorem entry_of_answers {e : Edge} (he : e ∈ t.edges) (hentry : isEntry t.graph e = true)
    (ha : answers t.graph s e.target = true) : e.source = i.id := by
  rcases h.separate with hone | hown
  · exact source_of_isEntry hone hi (Node.kind_of_inbound? hc) hentry
  · -- the rule asks for the tag of the only inbound that leads to it
    simp only [isEntry, Bool.and_eq_true, decide_eq_true_eq] at hentry
    simp only [answers, h.routingOf?_eq, Option.any_eq_true] at ha
    obtain ⟨d, hd, hmatch⟩ := ha
    obtain ⟨n, hn, hnd⟩ := Option.bind_eq_some_iff.mp hd
    obtain ⟨m', hm', d', hd', hasks, honly⟩ := hown n (Graph.node?_mem hn) d hnd
    have htag : d'.tag = c.tag := by
      rw [Rule.predicatesMatch_eq, Rule.categoriesHold, hasks] at hmatch
      simp only [Bool.and_eq_true] at hmatch
      rw [← hs]
      simpa [Rule.absentOr] using hmatch.1.1.1.1.1
    rw [honly e he (Graph.node?_id hn).symm hentry.1, h.inbound_unique hi hc hm' hd' htag]

/-- The rules of routing nodes: the first one that accepts leads where the
first match of the inbound leads first. -/
theorem find?_routingRules : (routingRules t.graph).find? (·.accepts s) =
    ((exits t.graph i.id).find? (leadsToMatch s)).bind fun x =>
      (Node.routing? x.2).bind fun d =>
        (targetsOf t.graph x.2.id).head?.map (rule d.predicates) := by
  have hsome : ∀ id, ((rulesOf t.graph id).find? (·.accepts s)).isSome =
      answers t.graph s id := by
    intro id
    simp only [rulesOf, answers, h.routingOf?_eq]
    cases hd : (t.graph.node? id).bind Node.routing? with
    | none => rfl
    | some d =>
      obtain ⟨n, hn, hnd⟩ := Option.bind_eq_some_iff.mp hd
      obtain ⟨x, rest, target, -, -, hhead⟩ :=
        h.first_exit (Graph.node?_mem hn) (Node.kind_of_routing? hnd)
      rw [Graph.node?_id hn] at hhead
      simp only [find?_rules, hhead, Option.any_some]
      cases Rule.predicatesMatch d.predicates s <;> rfl
  rw [routingRules_eq, List.find?_flatMap, h.routingOrder_eq,
    Order.findSome?_eq_bind fun id _ => hsome id, find?_entered h.ids h.linked hi
      (Node.kind_of_inbound? hc) fun e he => h.entry_of_answers hi hc hs he]
  cases hx : (exits t.graph i.id).find? (leadsToMatch s) with
  | none => rfl
  | some x =>
    obtain ⟨-, -, -, ht⟩ := mem_exits.mp (List.mem_of_find?_eq_some hx)
    have hnode := h.node?_id (Graph.node?_mem ht)
    have hmatch := List.find?_some hx
    simp only [leadsToMatch] at hmatch
    simp only [Option.map_some, Option.bind_some, rulesOf, h.routingOf?_eq, hnode]
    cases hd : Node.routing? x.2 with
    | none => rfl
    | some d =>
      simp only [hd] at hmatch
      simp only [Option.bind_some, find?_rules, hmatch, if_true]

/-- The rules of inbounds: the first one that accepts leads where the first
link past the rules leads. -/
theorem find?_directRules : (directRules t.graph).find? (·.accepts s) =
    ((exits t.graph i.id).find? leadsPastRules).bind fun x =>
      (target? x.2).map (rule (.ofInbound c.tag)) := by
  let first : Node → Option Document.Rule := fun m =>
    (directRulesOf t.graph m).find? (·.accepts s)
  have hfirst : ∀ m ∈ t.nodes, ∀ d, Node.inbound? m = some d →
      first m = if d.tag == s.inboundTag then
        (targetsOf t.graph m.id).head?.map (rule (.ofInbound d.tag)) else none := by
    intro m hm d hd
    simp only [first, directRulesOf, hd, find?_rules,
      predicatesMatch_ofInbound (h.tag_not_blank hm hd) (h.trimmed m hm d hd)]
  have hother : ∀ m ∈ t.nodes, m ≠ i → first m = none := by
    intro m hm hne
    cases hd : Node.inbound? m with
    | none => simp only [first, directRulesOf, hd, List.find?_nil]
    | some d =>
      have htag : (d.tag == s.inboundTag) = false := by
        rw [beq_eq_false_iff_ne, hs]
        exact fun htag => hne (h.inbound_unique hi hc hm hd htag)
      rw [hfirst m hm d hd, htag]
      rfl
  have hhead : (targetsOf t.graph i.id).head? =
      ((exits t.graph i.id).find? leadsPastRules).bind fun x => target? x.2 := by
    rw [targetsOf_eq, List.head?_filterMap]
    exact Order.findSome?_eq_bind fun x hx => h.target_of_inbound hi (Node.kind_of_inbound? hc) hx
  rw [directRules_eq, List.find?_flatMap]
  show t.nodes.findSome? first = _
  rw [Order.findSome?_eq_of_unique hi hother, hfirst i hi c hc, hs, beq_self_eq_true, if_pos rfl,
    hhead, Option.map_bind]
  rfl

end Tiered

/-! ## What the walk meets first -/

namespace Trace

/-- The first node on the way that is neither the inbound nor a rule. -/
def firstStop (i : Node) (t : Trace) : Option Node :=
  (t.steps.map Step.node).find? fun n => n ≠ i && n.kind ≠ .routing

section

variable {g : Graph} {pick : Picker} {r : Request} {visited : List String} {calls : List Nat}
  {i n : Node} {t : Trace}

theorem firstStop_onto {s : Step} {e : Edge} (h : s.node = i ∨ s.node.kind = .routing) :
    firstStop i (Onto s e t) = firstStop i t := by
  rcases h with h | h <;> simp [firstStop, Onto, h]

/-- A way that begins past the rules stops where it begins. -/
theorem Way.firstStop_eq [Rule.Patterns] (h : Way g pick r visited calls n t) (hne : n ≠ i)
    (hk : n.kind ≠ .routing) : firstStop i t = some n := by
  obtain ⟨s, steps, hsteps, rfl⟩ := h.head
  simp [firstStop, hsteps, hne, hk]

/-- A way that begins at a rule first stops where the rule leads first. -/
theorem Way.firstStop_routing [Rule.Patterns] (h : Way g pick r visited calls n t)
    (hnew : n.id ∉ visited) (hk : n.kind = .routing) {x : Exit} {rest : List Exit}
    (hx : exits g n.id = x :: rest) (hne : x.2 ≠ i) (hxk : x.2.kind ≠ .routing) :
    firstStop i t = some x.2 := by
  obtain ⟨c, hc⟩ := Node.exists_routing? hk
  have hdecision : decision g pick r calls n = .pass .ruleFollowed x calls := by
    simp only [decision, Node.routing?_eq_some.mp hc, hx, atRouting]
  obtain ⟨t', rfl, onward⟩ := h.onward hnew hdecision
  rw [firstStop_onto (.inr hk)]
  exact onward.firstStop_eq hne hxk

end

end Trace

namespace Tiered

open Compile Trace

variable {t : Topology} (h : Tiered t) {i : Node} {c : Inbound} (hi : i ∈ t.nodes)
  (hc : Node.inbound? i = some c) {r : Request} (hr : r.inboundTag = c.tag)

include h hi hc

include hr in
theorem entrance?_eq : entrance? t.graph r = some i := by
  cases hm : entrance? t.graph r with
  | none => exact absurd hr.symm (entrance?_eq_none.mp hm i hi c hc)
  | some m =>
    have hmatch := List.find?_some hm
    simp only [Option.any_eq_true, beq_iff_eq, hr] at hmatch
    obtain ⟨d, hd, htag⟩ := hmatch
    rw [h.inbound_unique hi hc (List.mem_of_find?_eq_some hm) hd htag]

include hr in
/-- Whichever choices are made, the way of a request first stops where the
first match of the inbound leads first, or else at its first link past the
rules. -/
theorem firstStop_run [Rule.Patterns] (pick : Picker) (calls : List Nat) :
    firstStop i (run t.graph pick calls r) =
      match (exits t.graph i.id).find? (leadsToMatch ⟨r.domain, r.protocol, r.port, c.tag⟩) with
      | some x => (exits t.graph x.2.id).head?.map Prod.snd
      | none => ((exits t.graph i.id).find? leadsPastRules).map Prod.snd := by
  have hik := Node.kind_of_inbound? hc
  have hway : Way t.graph pick r [] calls i (run t.graph pick calls r) :=
    run_way (h.entrance?_eq hi hc hr)
  have hdecision : decision t.graph pick r calls i = atInbound r calls i c (exits t.graph i.id) := by
    simp only [decision, Node.inbound?_eq_some.mp hc]
  generalize run t.graph pick calls r = trace at hway
  cases hm : (exits t.graph i.id).find? (leadsToMatch ⟨r.domain, r.protocol, r.port, c.tag⟩) with
  | some x =>
    have hx := List.mem_of_find?_eq_some hm
    obtain ⟨-, -, -, ht⟩ := mem_exits.mp hx
    have hmatch := List.find?_some hm
    have hkind : x.2.kind = .routing := by
      simp only [leadsToMatch] at hmatch
      split at hmatch
      case h_1 d hd => exact Node.kind_of_routing? hd
      case h_2 => cases hmatch
    obtain ⟨y, rest, target, hexits, htarget, -⟩ := h.first_exit (Graph.node?_mem ht) hkind
    obtain ⟨hne, hyk⟩ := ne_of_isTarget hik (n := y.2) (by simp [htarget])
    have hpass : decision t.graph pick r calls i = .pass (.ruleMatched x.2.displayName) x calls := by
      simp only [hdecision, atInbound, hm]
      rw [if_neg (by simpa using List.ne_nil_of_mem hx)]
    obtain ⟨trace', rfl, onward⟩ := hway.onward (by simp) hpass
    have hnew : x.2.id ∉ [i.id] := by
      rw [List.mem_singleton]
      intro hid
      have hxi : x.2 = i := by
        simpa [hid, h.node?_id hi] using (h.node?_id (Graph.node?_mem ht)).symm
      simp [hxi, hik] at hkind
    rw [firstStop_onto (s := ⟨i, _⟩) (.inl rfl), onward.firstStop_routing hnew hkind hexits hne hyk]
    simp [hexits]
  | none =>
    cases hp : (exits t.graph i.id).find? leadsPastRules with
    | some x =>
      have hx := List.mem_of_find?_eq_some hp
      have hpass : decision t.graph pick r calls i = .pass .straightOn x calls := by
        simp only [hdecision, atInbound, hm, hp]
        rw [if_neg (by simpa using List.ne_nil_of_mem hx)]
      obtain ⟨hne, hxk⟩ := ne_of_isTarget hik (n := x.2) (by
        rw [h.target_of_inbound hi hik hx]
        exact List.find?_some hp)
      obtain ⟨trace', rfl, onward⟩ := hway.onward (by simp) hpass
      rw [firstStop_onto (s := ⟨i, _⟩) (.inl rfl), onward.firstStop_eq hne hxk]
      rfl
    | none =>
      have hkeep : ∃ remark ending, decision t.graph pick r calls i = .keep remark ending := by
        simp only [hdecision, atInbound, hm, hp]
        split <;> exact ⟨_, _, rfl⟩
      obtain ⟨remark, ending, hkeep⟩ := hkeep
      simp [firstStop, hway.steps_kept (by simp) hkeep]

include hr in
/-- The one document of a tiered topology and the topology itself agree on every
request: the first rule that accepts it leads to the node at which its way
first stops, and if no rule does, it stops nowhere past the rules. -/
theorem compile_firstRule [Rule.Patterns] (pick : Picker) (calls : List Nat) (o : Options) :
    ∃ out, t.compile o = [out] ∧
      match out.document.routing.rules.find? (·.accepts ⟨r.domain, r.protocol, r.port, c.tag⟩) with
      | some rule => ∃ n, firstStop i (run t.graph pick calls r) = some n ∧ rule.leadsTo n
      | none => firstStop i (run t.graph pick calls r) = none := by
  refine ⟨_, compile_ungrouped h.ungrouped o, ?_⟩
  have hgraph : t.graph.linked = t.graph := Graph.linked_eq_self h.linked
  simp only [plainDocument, hgraph, h.firstStop_run hi hc hr]
  generalize hs : (⟨r.domain, r.protocol, r.port, c.tag⟩ : Rule.Subject) = s
  have htag : s.inboundTag = c.tag := by rw [← hs]
  rw [rules, List.find?_append, h.find?_routingRules hi hc htag, h.find?_directRules hi hc htag]
  cases hm : (exits t.graph i.id).find? (leadsToMatch s) with
  | some x =>
    obtain ⟨-, -, -, ht⟩ := mem_exits.mp (List.mem_of_find?_eq_some hm)
    have hmatch := List.find?_some hm
    simp only [leadsToMatch] at hmatch
    cases hd : Node.routing? x.2 with
    | none => simp [hd] at hmatch
    | some d =>
      obtain ⟨y, rest, target, hexits, htarget, hhead⟩ :=
        h.first_exit (Graph.node?_mem ht) (Node.kind_of_routing? hd)
      simp only [Option.bind_some, hd, hhead, Option.map_some, Option.some_or, hexits,
        List.head?_cons]
      exact ⟨y.2, rfl, rule_leadsTo htarget _⟩
  | none =>
    cases hp : (exits t.graph i.id).find? leadsPastRules with
    | none => simp
    | some x =>
      have htarget := h.target_of_inbound hi (Node.kind_of_inbound? hc) (List.mem_of_find?_eq_some hp)
      rw [List.find?_some hp] at htarget
      obtain ⟨target, htarget⟩ := Option.isSome_iff_exists.mp htarget
      simp only [Option.bind_none, Option.none_or, Option.bind_some, htarget, Option.map_some]
      exact ⟨x.2, rfl, rule_leadsTo htarget _⟩

end Tiered

/-! ## An instance -/

namespace Tiered

open Compile Trace

/-- An inbound that blocks one domain and passes everything else on. -/
def gate : Node :=
  ⟨"in", .origin, .inbound ⟨"gate", .socks, "", 1080, none, [], none, none⟩, none⟩

/-- The graph around the inbound. -/
def blocking : Topology where
  nodes := [gate,
    ⟨"rule", .origin, .routing ⟨"ads", { Predicates.none with domain := ["domain:ads.example"] }⟩,
      none⟩,
    ⟨"block", .origin, .terminal ⟨"block", .blackhole⟩, none⟩,
    ⟨"out", .origin, .terminal ⟨"direct", .freedom⟩, none⟩]
  edges := [⟨"a", "in", "rule", .plain, none⟩, ⟨"b", "rule", "block", .plain, none⟩,
    ⟨"c", "in", "out", .plain, none⟩]
  servers := []

theorem blocking_tiered : Tiered blocking where
  ids := by decide +kernel
  ungrouped := by decide +kernel
  clean := by decide +kernel
  trimmed := by
    intro n hn c hc
    simp only [blocking, List.mem_cons, List.not_mem_nil, or_false] at hn
    rcases hn with rfl | rfl | rfl | rfl <;> cases hc
    decide +kernel
  flat := by decide +kernel
  leads := by decide +kernel
  entered := by decide +kernel
  separate := .inl (by decide +kernel)

attribute [local instance] Rule.Patterns.empty

theorem compile_firstRule_blocking :
    ∃ out, blocking.compile .usual = [out] ∧
      match out.document.routing.rules.find? (·.accepts ⟨"ads.example", "tcp", 443, "gate"⟩) with
      | some rule =>
        ∃ n, firstStop gate (run blocking.graph firstPicker [] ⟨"ads.example", "tcp", 443, "gate"⟩) =
          some n ∧ rule.leadsTo n
      | none =>
        firstStop gate (run blocking.graph firstPicker [] ⟨"ads.example", "tcp", 443, "gate"⟩) =
          none :=
  blocking_tiered.compile_firstRule (i := gate)
    (c := ⟨"gate", .socks, "", 1080, none, [], none, none⟩)
    (r := ⟨"ads.example", "tcp", 443, "gate"⟩) (by decide +kernel) rfl rfl firstPicker [] .usual

end Tiered
end ProxyPlan
