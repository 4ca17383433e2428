/-
ProxyPlan.Proofs.TakeOver — entries in normal form are taken over as they are.

`Draft.Holds` says what a draft has been made from: its nodes compile to
entries that are known, its edges join them as the rules and balancers do, and
nothing has been said about any of them. Every step of a draft adds its entry
to what is held, so that in the end the graph compiles to the entries that it
has been made from.
-/
import ProxyPlan.Proofs.Assembled
import ProxyPlan.Proofs.Draft
import ProxyPlan.Proofs.LiftedRules
import ProxyPlan.Proofs.NormalDocument

namespace ProxyPlan.Import

open Compile

/-! ## What a draft holds -/

/-- The draft has been made from these entries, without a warning. -/
structure Draft.Holds (d : Draft) (is : List Document.Inbound) (os : List Document.Outbound)
    (bs : List Document.Balancer) (rs : List Document.Rule) : Prop where
  made : d.Made
  joined : d.graph.Joined
  inbounds : d.nodes.filterMap plainInbound? = is
  outbounds : d.nodes.filterMap plainOutbound? = os
  balancers : d.nodes.filterMap ownBalancer? = bs
  ruled : d.graph.Ruled rs
  unruled : rs = [] → ∀ n ∈ d.nodes, n.kind ≠ .routing
  silent : d.warnings = []

namespace Draft

variable {d d' : Draft} {is : List Document.Inbound} {os : List Document.Outbound}
  {bs : List Document.Balancer} {rs : List Document.Rule}

theorem holds_empty : empty.Holds [] [] [] [] where
  made := made_empty
  joined := ⟨.nil, by simp [graph, empty]⟩
  inbounds := rfl
  outbounds := rfl
  balancers := rfl
  ruled := Graph.ruled_nil (by simp [graph, empty])
  unruled := by simp [empty]
  silent := rfl

/-- What a draft holds is in its graph; how many entries it counts does not matter. -/
theorem Holds.of_graph (h : d.Holds is os bs rs) (hgraph : d'.graph = d.graph)
    (hwarnings : d'.warnings = d.warnings) : d'.Holds is os bs rs := by
  obtain ⟨nodes, edges, _, _, _, _, warnings⟩ := d
  obtain ⟨nodes', edges', _, _, _, _, warnings'⟩ := d'
  obtain ⟨rfl, rfl⟩ : nodes' = nodes ∧ edges' = edges := by simpa [graph] using hgraph
  obtain rfl : warnings' = warnings := hwarnings
  exact ⟨h.made, h.joined, h.inbounds, h.outbounds, h.balancers, h.ruled, h.unruled, h.silent⟩

/-- A node that is no rule, with edges as entries are joined, adds what it
compiles to. -/
theorem Holds.grow (h : d.Holds is os bs []) {role : Role} {es : List Edge}
    (hkind : role.kind ≠ .routing) (hgraph : d'.graph = d.graph.grow [d.next role] es)
    (hwarnings : d'.warnings = d.warnings)
    (hes : ∀ e ∈ es, ∃ s t, d'.graph.source? e = some s ∧ d'.graph.target? e = some t ∧
      Leads s t) :
    d'.Holds (is ++ (plainInbound? (d.next role)).toList)
      (os ++ (plainOutbound? (d.next role)).toList)
      (bs ++ (ownBalancer? (d.next role)).toList) [] := by
  have hnodes : d'.nodes = d.nodes ++ [d.next role] := congrArg Graph.nodes hgraph
  have hmapped : ∀ {α : Type} (f : Node → Option α),
      d'.nodes.filterMap f = d.nodes.filterMap f ++ (f (d.next role)).toList := by
    intro α f
    rw [hnodes, List.filterMap_append]
    cases hf : f (d.next role) <;> simp [hf]
  have hunruled : ∀ n ∈ d'.nodes, n.kind ≠ .routing := by
    intro n hn
    rw [hnodes] at hn
    rcases List.mem_append.mp hn with hn | hn
    · exact h.unruled rfl n hn
    · obtain rfl := List.mem_singleton.mp hn
      exact hkind
  constructor
  case made => exact h.made.grow role hnodes
  case joined =>
    rw [hgraph] at hes ⊢
    exact h.joined.grow (h.made.nextId_fresh role.kind) hes
  case inbounds => rw [hmapped, h.inbounds]
  case outbounds => rw [hmapped, h.outbounds]
  case balancers => rw [hmapped, h.balancers]
  case ruled => exact Graph.ruled_nil hunruled
  case unruled => exact fun _ => hunruled
  case silent => rw [hwarnings, h.silent]

/-- A node by itself adds what it compiles to. -/
theorem Holds.add (h : d.Holds is os bs []) (role : Role) (hkind : role.kind ≠ .routing) :
    (d.add role).Holds (is ++ (plainInbound? (d.next role)).toList)
      (os ++ (plainOutbound? (d.next role)).toList)
      (bs ++ (ownBalancer? (d.next role)).toList) [] :=
  h.grow hkind (d.graph_add role) rfl (by simp)

/-! ## Endpoints -/

theorem Holds.addInbound (h : d.Holds is os bs []) {i : Document.Inbound} (hi : i.Normal) :
    (d.addInbound i).Holds (is ++ [i]) os bs [] := by
  obtain ⟨c, htag, hgiven, hc⟩ := hi
  have hprotocol : InboundProtocol.naming.find? i.protocol = some c.protocol := by
    rw [hc]
    exact InboundProtocol.find?_name c.protocol
  have hself : inbound (inboundOf c.protocol (d.nextId .inbound) i)
      (Transport.stream? (Document.Stream.lift? i.stream)) = i := by
    have hstream : Transport.stream? (Document.Stream.lift? i.stream) =
        Transport.stream? c.transport := by
      rw [hc]
      exact Transport.stream?_lift? c.transport
    rw [hstream, hc]
    exact inbound_recovered htag hgiven _ _
  have hadded := h.add (.inbound (inboundOf c.protocol (d.nextId .inbound) i))
    (by simp [Role.kind])
  rw [Draft.addInbound, hprotocol]
  simp only [plainInbound?, plainOutbound?, ownBalancer?, next, Option.toList_none,
    Option.toList_some, List.append_nil] at hadded
  have hlifted : (inboundOf c.protocol (d.nextId .inbound) i).transport =
      Document.Stream.lift? i.stream := rfl
  rw [hlifted, hself] at hadded
  exact hadded.of_graph rfl rfl

theorem Holds.addTerminal (h : d.Holds is os bs []) {c : Terminal} (htag : Text.Tight c.tag) :
    (d.addOutbound (terminal c)).Holds is (os ++ [terminal c]) bs [] := by
  have hprotocol : TerminalProtocol.naming.find? (terminal c).protocol = some c.protocol :=
    TerminalProtocol.find?_name c.protocol
  have hadded := h.add (.terminal ⟨tagOr (terminal c).tag (d.nextId .terminal), c.protocol⟩)
    (by simp [Role.kind])
  rw [Draft.addOutbound, hprotocol]
  simp only [plainInbound?, plainOutbound?, ownBalancer?, next, Option.toList_none,
    Option.toList_some, List.append_nil] at hadded
  rw [terminal_recovered htag] at hadded
  exact hadded.of_graph rfl rfl

theorem Holds.addProxy (h : d.Holds is os bs []) {c : Proxy} {o : Document.Outbound}
    (htag : Text.Tight c.tag) (ho : o = proxy c none (Transport.stream? c.transport)) :
    (d.addOutbound o).Holds is (os ++ [o]) bs [] := by
  have hterminal : TerminalProtocol.naming.find? o.protocol = none := by
    rw [ho]
    exact TerminalProtocol.find?_proxy c.protocol
  have hprotocol : ProxyProtocol.naming.find? o.protocol = some c.protocol := by
    rw [ho]
    exact ProxyProtocol.find?_name c.protocol
  have hself : proxy (proxyOf c.protocol (d.nextId .proxy) o) none
      (Transport.stream? (Document.Stream.lift? o.stream)) = o := by
    have hstream : Transport.stream? (Document.Stream.lift? o.stream) =
        Transport.stream? c.transport := by
      rw [ho]
      exact Transport.stream?_lift? c.transport
    rw [hstream, ho]
    exact proxy_recovered htag _ _
  have hadded := h.add (.proxy (proxyOf c.protocol (d.nextId .proxy) o))
    (by simp [Role.kind])
  rw [Draft.addOutbound, hterminal, hprotocol]
  simp only [plainInbound?, plainOutbound?, ownBalancer?, next, Option.toList_none,
    Option.toList_some, List.append_nil] at hadded
  have hlifted : (proxyOf c.protocol (d.nextId .proxy) o).transport =
      Document.Stream.lift? o.stream := rfl
  rw [hlifted, hself] at hadded
  exact hadded.of_graph rfl rfl

theorem Holds.addOutbound (h : d.Holds is os bs []) {o : Document.Outbound} (ho : o.Normal) :
    (d.addOutbound o).Holds is (os ++ [o]) bs [] := by
  rcases ho with ⟨c, htag, rfl⟩ | ⟨c, htag, hc⟩
  · exact h.addTerminal htag
  · exact h.addProxy htag hc

/-! ## Balancers -/

theorem strategyOf_normal {b : Document.Balancer} (hb : b.Normal) :
    ∃ s, strategyOf b = (s, []) ∧ (if s = .random then none else some s.name) = b.strategy := by
  rw [strategyOf]
  rcases hb.strategy with hnone | ⟨s, hs, hsome⟩
  · rw [hnone]
    exact ⟨.random, rfl, rfl⟩
  · simp only [hsome, Strategy.find?_name]
    exact ⟨s, rfl, if_neg hs⟩

/-- A balancer in normal form is what its node declares. -/
theorem ownBalancer_recovered {b : Document.Balancer} (hb : b.Normal) (fallback : String) :
    ownBalancer ⟨tagOr b.tag fallback, (strategyOf b).1, b.selector⟩ = b := by
  obtain ⟨s, hs, hstrategy⟩ := strategyOf_normal hb
  have hselector : b.selector.filterMap Text.nonBlank? = b.selector := by
    rw [List.filterMap_congr fun s hs => (hb.selector s hs).nonBlank?, List.filterMap_some]
  rw [ownBalancer, declared, hs, hstrategy, hselector, tagOr_of_tight hb.tag]

theorem Holds.addBalancer (h : d.Holds is os bs []) {b : Document.Balancer} (hb : b.Normal) :
    (d.addBalancer b).Holds is os (bs ++ [b]) [] := by
  obtain ⟨es, hgraph, hwarnings, hes, -⟩ := addBalancer_spec b d
  obtain ⟨s, hs, -⟩ := strategyOf_normal hb
  rw [hs, List.append_nil] at hwarnings
  have hfresh := h.made.nextId_fresh .balancer
  have hleads : ∀ e ∈ es, ∃ s t, (d.addBalancer b).graph.source? e = some s ∧
      (d.addBalancer b).graph.target? e = some t ∧ Leads s t := by
    intro e he
    obtain ⟨hsource, n, hn, hpicked, htarget⟩ := hes e he
    have hid : n.id ∈ d.graph.ids := Graph.mem_ids.mpr ⟨n, hn, rfl⟩
    rw [hgraph, Graph.source?, hsource, Graph.target?, htarget, Graph.node?_grow hid,
      Graph.node?_of_mem h.joined.ids hn]
    exact ⟨_, n, Graph.node?_grow_self hfresh, rfl, .inr (.inr ⟨_, rfl, hpicked⟩)⟩
  have hadded := h.grow (by simp [Role.kind]) hgraph hwarnings hleads
  simp only [plainInbound?, plainOutbound?, ownBalancer?, next, Option.toList_none,
    Option.toList_some, List.append_nil] at hadded
  rw [ownBalancer_recovered hb] at hadded
  exact hadded

/-! ## Rules -/

variable {doc : Document}

/-- What a document declares is there. -/
theorem Holds.exists_target (h : d.Holds is doc.outbounds doc.routing.balancers rs) {t : Target}
    (ht : doc.Declares t) : ∃ n ∈ d.nodes, Compile.target? n = some t := by
  cases t with
  | outbound tag =>
    have htag : tag ∈ doc.outbounds.map Document.Outbound.tag := ht
    rw [← h.outbounds] at htag
    obtain ⟨o, ho, rfl⟩ := List.mem_map.mp htag
    obtain ⟨n, hn, hplain⟩ := List.mem_filterMap.mp ho
    refine ⟨n, hn, ?_⟩
    rw [plainOutbound?] at hplain
    split at hplain <;> cases hplain
    case h_1 c hc => rw [Compile.target?, hc, terminal]
    case h_2 c hc => rw [Compile.target?, hc, proxy]
  | balancer tag =>
    have htag : tag ∈ doc.routing.balancers.map Document.Balancer.tag := ht
    rw [← h.balancers] at htag
    obtain ⟨b, hb, rfl⟩ := List.mem_map.mp htag
    obtain ⟨n, hn, hown⟩ := List.mem_filterMap.mp hb
    refine ⟨n, hn, ?_⟩
    rw [ownBalancer?] at hown
    split at hown <;> cases hown
    case h_1 c hc => rw [Compile.target?, hc, ownBalancer]

/-- What a compiled rule sends requests to is found. -/
theorem Holds.target_eq (h : d.Holds is doc.outbounds doc.routing.balancers rs) {t : Target}
    (ht : doc.Declares t) (number : Nat) (p : Predicates) :
    ∃ m ∈ d.nodes, d.target number (rule p t) = .ok m.id ∧ Compile.target? m = some t := by
  obtain ⟨n, hn, hnt⟩ := h.exists_target ht
  cases t with
  | outbound tag =>
    obtain ⟨hkind, htag⟩ := target?_eq_outbound.mp hnt
    obtain ⟨id, hid⟩ := exists_latest? hn hkind htag
    obtain ⟨m, hm, rfl, hm'⟩ := of_latest? hid
    refine ⟨m, hm, ?_, target?_eq_outbound.mpr hm'⟩
    simp only [Draft.target, rule, Target.outbound?, hid]
  | balancer tag =>
    obtain ⟨hkind, htag⟩ := target?_eq_balancer.mp hnt
    obtain ⟨id, hid⟩ : ∃ id, d.latest? (· = .balancer) tag = some id :=
      exists_latest? hn (decide_eq_true hkind) htag
    obtain ⟨m, hm, rfl, hmkind, hmtag⟩ := of_latest? hid
    refine ⟨m, hm, ?_, target?_eq_balancer.mpr ⟨of_decide_eq_true hmkind, hmtag⟩⟩
    simp only [Draft.target, rule, Target.outbound?, Target.balancer?, hid]

theorem kind?_of_mem (hids : (d.nodes.map Placed.id).Nodup) {n : Node} (hn : n ∈ d.nodes) :
    d.graph.kind? n.id = some n.kind :=
  Graph.kind?_eq_some.mpr ⟨n, Graph.node?_of_mem hids hn, rfl⟩

/-- An inbound that is declared is found. -/
theorem Holds.inbound_eq (h : d.Holds doc.inbounds os bs rs) {tag : String}
    (htag : tag ∈ doc.inbounds.map Document.Inbound.tag) :
    ∃ n ∈ d.nodes, d.inbound? tag = some n.id ∧ n.kind = .inbound := by
  rw [← h.inbounds] at htag
  obtain ⟨i, hi, rfl⟩ := List.mem_map.mp htag
  obtain ⟨n, hn, hplain⟩ := List.mem_filterMap.mp hi
  have hthere : n.kind = .inbound ∧ n.tag? = some i.tag := by
    rw [plainInbound?] at hplain
    split at hplain <;> cases hplain
    case h_1 c hc => simp [Node.kind, Node.tag?, hc, Role.kind, Role.tag?, inbound]
  obtain ⟨id, hid⟩ : ∃ id, d.inbound? i.tag = some id :=
    exists_latest? hn (decide_eq_true hthere.1) hthere.2
  obtain ⟨m, hm, rfl, hkind, -⟩ := of_latest? hid
  exact ⟨m, hm, hid, of_decide_eq_true hkind⟩

/-- A rule that lists inbounds that are declared asks for nothing else, and it asks
for one at least if there are any. -/
theorem Holds.sources_spec (h : d.Holds doc.inbounds os bs rs) {listed : List String}
    (hlisted : ∀ tag ∈ listed, tag ∈ doc.inbounds.map Document.Inbound.tag) (number : Nat) :
    d.unknownInbounds number listed = [] ∧
      (∀ id ∈ d.sources listed, d.graph.kind? id = some .inbound) ∧
      ((∃ n ∈ d.nodes, n.kind = .inbound) → d.sources listed ≠ []) := by
  cases listed with
  | nil =>
    refine ⟨rfl, fun id hid => ?_, ?_⟩
    · obtain ⟨n, hn, rfl⟩ := List.mem_map.mp hid
      obtain ⟨hn, hkind⟩ := List.mem_filter.mp hn
      rw [kind?_of_mem h.joined.ids hn, of_decide_eq_true hkind]
    · rintro ⟨n, hn, hkind⟩
      have hid : n.id ∈ d.sources [] :=
        List.mem_map.mpr ⟨n, List.mem_filter.mpr ⟨hn, decide_eq_true hkind⟩, rfl⟩
      exact List.ne_nil_of_mem hid
  | cons first rest =>
    have hsources : d.sources (first :: rest) = (first :: rest).filterMap d.inbound? := rfl
    refine ⟨?_, fun id hid => ?_, fun _ => ?_⟩
    · refine List.map_eq_nil_iff.mpr (List.filter_eq_nil_iff.mpr fun tag htag => ?_)
      obtain ⟨n, -, hn, -⟩ := h.inbound_eq (hlisted tag htag)
      simp [hn]
    · rw [hsources] at hid
      obtain ⟨tag, htag, hid⟩ := List.mem_filterMap.mp hid
      obtain ⟨n, hn, hfound, hkind⟩ := h.inbound_eq (hlisted tag htag)
      obtain rfl : n.id = id := Option.some.inj (hfound.symm.trans hid)
      rw [kind?_of_mem h.joined.ids hn, hkind]
    · obtain ⟨n, -, hn, -⟩ := h.inbound_eq (hlisted first (by simp))
      rw [hsources]
      exact List.ne_nil_of_mem (List.mem_filterMap.mpr ⟨first, by simp, hn⟩)

/-- A routing node that inbounds lead to, if there are any, and that leads to a
target adds the rule of its predicates and of this target. -/
theorem Holds.growRule (h : d.Holds is os bs rs) {c : Routing} {into : List Edge} {out : Edge}
    {m : Node} {goal : Target}
    (hgraph : d'.graph = d.graph.grow [d.next (.routing c)] (into ++ [out]))
    (hwarnings : d'.warnings = d.warnings)
    (hnew : d.graph.RuleEdges (d.next (.routing c)) m into out)
    (hgoal : Compile.target? m = some goal)
    (hsome : (∃ n ∈ d.nodes, n.kind = .inbound) → into ≠ [])
    (hrank : rs.length < 2 ^ 32 → ∀ e ∈ into, e.priority.toNat = rs.length) :
    d'.Holds is os bs (rs ++ [rule c.predicates goal]) := by
  have hnodes : d'.nodes = d.nodes ++ [d.next (.routing c)] := congrArg Graph.nodes hgraph
  have hmapped : ∀ {α : Type} (f : Node → Option α), f (d.next (.routing c)) = none →
      d'.nodes.filterMap f = d.nodes.filterMap f := by
    intro α f hf
    rw [hnodes, List.filterMap_append]
    simp [hf]
  constructor
  case made => exact h.made.grow _ hnodes
  case joined =>
    rw [hgraph]
    exact h.joined.grow hnew.fresh (hnew.leads (by rw [hgoal]; rfl))
  case inbounds => rw [hmapped _ rfl, h.inbounds]
  case outbounds => rw [hmapped _ rfl, h.outbounds]
  case balancers => rw [hmapped _ rfl, h.balancers]
  case ruled =>
    rw [hgraph]
    exact h.ruled.grow h.joined hnew rfl hgoal hsome hrank
  case unruled => exact fun hnil => absurd hnil (by simp)
  case silent => rw [hwarnings, h.silent]

/-- The new node has no links yet, so leading inbounds over it to a target draws
all the edges that a rule has. -/
theorem lead_ruleEdges (hmade : d.Made) (hids : (d.nodes.map Placed.id).Nodup)
    (hlink : ∀ e ∈ d.edges, d.graph.isLink e = true) {sources : List String} {m : Node}
    (hsources : ∀ id ∈ sources, d.graph.kind? id = some .inbound) (hm : m ∈ d.nodes)
    (index : Nat) (r : Document.Rule) :
    ∃ into out, d.lead true index r sources m.id =
        { d with
          nodes := d.nodes ++ [d.next (.routing ⟨ruleTag (index + 1) r, predicatesOf r⟩)]
          edges := d.edges ++ into ++ [out] } ∧
      d.graph.RuleEdges (d.next (.routing ⟨ruleTag (index + 1) r, predicatesOf r⟩)) m into out ∧
      (∀ source ∈ sources, ∃ e ∈ into, e.source = source) ∧
      ∀ e ∈ into, e.source ∈ sources ∧
        e.priority = (Text.word? index).getD defaultPriority := by
  obtain ⟨into, out, hled, hinto, hall, hout⟩ := lead_spec d index r sources m.id
  have hfresh : d.nextId .routing ∉ d.graph.ids := hmade.nextId_fresh .routing
  have hends : ∀ e ∈ d.edges, e.source ≠ d.nextId .routing ∧ e.target ≠ d.nextId .routing := by
    intro e he
    obtain ⟨hsource, htarget⟩ := Graph.isLink_iff.mp (hlink e he)
    exact ⟨fun heq => hfresh (heq ▸ hsource), fun heq => hfresh (heq ▸ htarget)⟩
  have hentries : ∀ e ∈ into,
      d.graph.kind? e.source = some .inbound ∧ e.target = d.nextId .routing := fun e he =>
    ⟨hsources _ (hinto e he).1, (hinto e he).2.1⟩
  have hsource : ∀ e ∈ d.edges ++ into, e.source ≠ d.nextId .routing := by
    intro e he
    rcases List.mem_append.mp he with he | he
    · exact (hends e he).1
    · intro heq
      obtain ⟨n, hn, -⟩ := Graph.kind?_eq_some.mp (hentries e he).1
      exact hfresh (heq ▸ Graph.isSome_node?.mp (by rw [hn]; rfl))
  obtain ⟨last, rfl, hexit, htarget⟩ := hout hsource
  have hnode : d.graph.target? last = some m := by
    rw [Graph.target?, htarget]
    exact Graph.node?_of_mem hids hm
  refine ⟨into, last, hled, ⟨hfresh, rfl, hentries, hexit, hnode⟩, fun source hsource => ?_,
    fun e he => ⟨(hinto e he).1, (hinto e he).2.2⟩⟩
  obtain ⟨e, he, hself, htarget⟩ := hall source hsource
  refine ⟨e, (List.mem_append.mp he).resolve_left fun hold => ?_, hself⟩
  exact (hends e hold).2 htarget

theorem Holds.addRule
    (h : d.Holds doc.inbounds doc.outbounds doc.routing.balancers rs) {r : Document.Rule}
    (hr : r.Normal doc) :
    (d.addRule true rs.length r).Holds doc.inbounds doc.outbounds doc.routing.balancers
      (rs ++ [r]) := by
  obtain ⟨p, t, rfl, hdeclares, hasked⟩ := hr
  obtain ⟨m, hm, htarget, hgoal⟩ := h.target_eq hdeclares (rs.length + 1) p
  have hlisted : ∀ tag ∈ (rule p t).inboundTag.getD [],
      tag ∈ doc.inbounds.map Document.Inbound.tag := by
    intro tag htag
    refine hasked tag ?_
    cases hp : p.inboundTag? with
    | none => simp [rule, hp] at htag
    | some asked => simpa [rule, hp, eq_comm] using htag
  obtain ⟨hsaid, hsources, hsome⟩ := h.sources_spec hlisted (rs.length + 1)
  obtain ⟨into, out, hled, hnew, hentered, hpriority⟩ := lead_ruleEdges
    (d := { d with rules := d.rules + 1 }) h.made h.joined.ids h.joined.isLink hsources hm rs.length
    (rule p t)
  have hadded : d.addRule true rs.length (rule p t) =
      Draft.lead { d with rules := d.rules + 1 } true rs.length (rule p t)
        (d.sources ((rule p t).inboundTag.getD [])) m.id := by
    simp only [Draft.addRule, htarget, hsaid, List.append_nil]
  have hgraph : (d.addRule true rs.length (rule p t)).graph = d.graph.grow
      [d.next (.routing ⟨ruleTag (rs.length + 1) (rule p t), predicatesOf (rule p t)⟩)]
      (into ++ [out]) := by
    rw [hadded, hled, graph, Graph.grow, ← List.append_assoc]
    rfl
  have hwarnings : (d.addRule true rs.length (rule p t)).warnings = d.warnings := by
    rw [hadded, hled]
  have hranked : rs.length < 2 ^ 32 → ∀ e ∈ into, e.priority.toNat = rs.length := by
    intro hfew e he
    rw [(hpriority e he).2, Text.word?_of_lt hfew, Option.getD_some]
    exact UInt32.toNat_ofNat_of_lt' hfew
  have hinto : (∃ n ∈ d.nodes, n.kind = .inbound) → into ≠ [] := by
    rintro hthere rfl
    obtain ⟨source, hsource⟩ := List.exists_mem_of_ne_nil _ (hsome hthere)
    obtain ⟨e, he, -⟩ := hentered source hsource
    cases he
  have hgrown := h.growRule hgraph hwarnings hnew hgoal hinto hranked
  rw [rule_predicatesOf] at hgrown
  exact hgrown

end Draft
end ProxyPlan.Import
