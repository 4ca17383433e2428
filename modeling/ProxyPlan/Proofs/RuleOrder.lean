/-
ProxyPlan.Proofs.RuleOrder — a graph that is taken over tries rules in their
order.

In a document the first rule that matches decides where a request goes. In the
graph that is made from it every rule is a routing node, and which of them is
tried first is said by the priorities of the links from an inbound. As long as
nothing is reported, taking over adds one routing node a rule, enters it from
the inbounds that the rule is for with the place of the rule as priority, and
leads it to the one target of the rule (`Graph.Routed`). So the links of an
inbound, best first, lead to the rules for this inbound in the order of the
document (`outgoing_targets`), and a request takes the node of the first rule
that matches, from there the target of the rule, or stays where it is
(`config_routes`).

A place is kept in 32 bits. From 2 ^ 32 rules on the others would have the
priority of links that have none; which rule comes first is therefore said for
fewer rules only.
-/
import ProxyPlan.Proofs.Rules

namespace ProxyPlan

/-! ## Rules with one inbound at most -/

namespace Document.Rule

/-- The rule lists no other inbound than the one with this tag. -/
def isFor (r : Document.Rule) (tag : String) : Bool := (r.inboundTag.getD []).all (· == tag)

/-- A rule that lists one inbound at most is for all of them or for this one. -/
theorem listed_cases {r : Document.Rule} (hlisted : (r.inboundTag.getD []).length ≤ 1) :
    r.inboundTag.getD [] = [] ∨ ∃ tag, r.inboundTag.getD [] = [tag] := by
  rcases Nat.le_one_iff_eq_zero_or_eq_one.mp hlisted with hnone | hone
  · exact .inl (List.length_eq_zero_iff.mp hnone)
  · exact .inr (List.length_eq_one_iff.mp hone)

/-- What is present of a rule with one inbound at most accepts what the predicates
match that are made of the rule. -/
theorem present_accepts [Rule.Patterns] {r : Document.Rule}
    (hlisted : (r.inboundTag.getD []).length ≤ 1)
    (htight : ∀ tag ∈ r.inboundTag.getD [], Text.Tight tag) (s : Rule.Subject) :
    r.present.accepts s = Rule.predicatesMatch (Import.predicatesOf r) s := by
  have hinbound : ((r.inboundTag.filter fun tags => !tags.isEmpty).all fun tags =>
      tags.contains s.inboundTag) =
        Rule.absentOr (Import.predicatesOf r).inboundTag? (· == s.inboundTag) := by
    rw [all_filter_nonEmpty]
    show _ = Rule.absentOr ((r.inboundTag.getD []).head?.bind Text.nonBlank?) _
    obtain hasked | ⟨tag, hasked⟩ := listed_cases hlisted <;> rw [hasked]
    · rfl
    · rw [hasked] at htight
      have hself : ([tag].head?.bind Text.nonBlank?) = some tag :=
        (htight tag List.mem_cons_self).nonBlank?
      rw [hself]
      simp [Rule.absentOr, Bool.beq_eq_decide_eq, eq_comm (a := s.inboundTag)]
  rw [present_accepts_eq, predicatesMatch_predicatesOf, hinbound]

/-- A rule that matches is for the inbound of the request. -/
theorem isFor_of_accepts [Rule.Patterns] {r : Document.Rule}
    (hlisted : (r.inboundTag.getD []).length ≤ 1) {s : Rule.Subject}
    (h : r.present.accepts s = true) : r.isFor s.inboundTag = true := by
  have hasks : (r.present.inboundTag.all fun tags => tags.contains s.inboundTag) = true := by
    simp only [accepts, Bool.and_eq_true] at h
    exact h.1.1.1.1.1
  rw [present, all_filter_nonEmpty] at hasks
  rw [isFor]
  obtain hasked | ⟨tag, hasked⟩ := listed_cases hlisted <;> rw [hasked]
  · rfl
  · rw [hasked] at hasks
    have hself : s.inboundTag = tag := by simpa using hasks
    simp [hself]

end Document.Rule

/-! ## Rules as nodes -/

/-- Where the links of an inbound with a tag lead: to the rules that are for it, and
the place of a rule is the priority. -/
def Import.linksFor (tag : String) (ws : List (String × Document.Rule)) : List (String × UInt32) :=
  (ws.zipIdx.filter fun x => x.1.2.isFor tag).map fun x =>
    (x.1.1, (Text.word? x.2).getD defaultPriority)

/-- The routing nodes have been made of these rules: they stand in their order, every
one leads to the target of its rule and is entered from the inbounds that the rule
is for. -/
structure Graph.Routed (g : Graph) (ws : List (String × Document.Rule)) : Prop where
  nodes : ((g.nodes.filter fun n => n.kind = .routing).map fun n => (n.id, n.role)) =
    ws.mapIdx fun k w => (w.1, .routing ⟨Import.Draft.ruleTag (k + 1) w.2, Import.predicatesOf w.2⟩)
  leads : ∀ w ∈ ws, ∃ e m, g.outgoing w.1 = [e] ∧ g.target? e = some m ∧ w.2.leadsTo m
  enters : ∀ i ∈ g.nodes, ∀ c, i.inbound? = some c →
    ((g.edges.filter fun e => e.source == i.id).map fun e => (e.target, e.priority)) =
      Import.linksFor c.tag ws
  asked : ∀ w ∈ ws, ∀ tag ∈ w.2.inboundTag.getD [],
    ∃ n ∈ g.nodes, n.kind = .inbound ∧ n.tag? = some tag

namespace Graph

variable {g : Graph} {ws : List (String × Document.Rule)}

/-- Without rules there are neither routing nodes nor links of inbounds. -/
theorem routed_nil (hnodes : ∀ n ∈ g.nodes, n.kind ≠ .routing)
    (hedges : ∀ e ∈ g.edges, ∀ i ∈ g.nodes, i.kind = .inbound → e.source ≠ i.id) :
    g.Routed [] where
  nodes := Import.madeOf_nil hnodes
  leads := by simp
  enters i hi c hc := by
    have hnone : (g.edges.filter fun e => e.source == i.id) = [] :=
      List.filter_eq_nil_iff.mpr fun e he => by
        simpa using hedges e he i hi (Node.kind_of_inbound? hc)
    rw [hnone]
    rfl
  asked := by simp

/-- Moving nodes does not change what the graph has been made of. -/
theorem Routed.of_unplaced (h : g.unplaced.Routed ws) : g.Routed ws where
  nodes := Import.MadeOf.of_unplaced h.nodes
  leads w hw := by
    obtain ⟨e, _, he, hmoved, hleads⟩ := h.leads w hw
    rw [target?, node?_unplaced] at hmoved
    obtain ⟨m, hm, rfl⟩ := Option.map_eq_some_iff.mp hmoved
    rw [outgoing_unplaced] at he
    exact ⟨e, m, he, hm, hleads⟩
  enters i hi c hc := h.enters i.unplaced (List.mem_map_of_mem hi) c hc
  asked := Import.AsksFor.of_unplaced h.asked

/-- One rule more: a new node, entered from the inbounds that the rule is for, with a
link to the target of the rule. -/
theorem Routed.grow (h : g.Routed ws) (hids : (g.nodes.map Placed.id).Nodup)
    (hlink : ∀ e ∈ g.edges, g.isLink e = true) {n m : Node} {r : Document.Rule}
    {into : List Edge} {out : Edge} (hnew : g.RuleEdges n m into out)
    (hrole : n.role =
      .routing ⟨Import.Draft.ruleTag (ws.length + 1) r, Import.predicatesOf r⟩)
    (hleads : r.leadsTo m)
    (hinto : ∀ i ∈ g.nodes, ∀ c, i.inbound? = some c →
      ((into.filter fun e => e.source == i.id).map fun e => (e.target, e.priority)) =
        if r.isFor c.tag then [(n.id, (Text.word? ws.length).getD defaultPriority)] else [])
    (hasked : ∀ tag ∈ r.inboundTag.getD [], ∃ n ∈ g.nodes, n.kind = .inbound ∧ n.tag? = some tag) :
    (g.grow [n] (into ++ [out])).Routed (ws ++ [(n.id, r)]) where
  nodes := Import.MadeOf.append h.nodes hnew.routing hrole
  leads := by
    refine List.forall_mem_append.mpr ⟨fun w hw => ?_, List.forall_mem_singleton.mpr ?_⟩
    · obtain ⟨e, t, he, ht, hends⟩ := h.leads w hw
      obtain ⟨k, hk, hkid, tag, hkrole⟩ := Import.MadeOf.of_mem h.nodes hw
      have hkmem : w.1 ∈ g.ids := mem_ids.mpr ⟨k, hk, hkid⟩
      refine ⟨e, t, ?_, ?_, hends⟩
      · rw [outgoing_grow hlink fun e' he' => ?_]
        · exact he
        · rcases List.mem_append.mp he' with he' | he'
          · -- a routing node is no inbound
            intro hsource
            have hkind := (hnew.entries e' he').1
            rw [hsource, ← hkid, kind?, node?_of_mem hids hk, Option.map_some, Node.kind,
              hkrole] at hkind
            cases hkind
          · obtain rfl := List.mem_singleton.mp he'
            rw [hnew.exit]
            exact fun hid => hnew.fresh (hid ▸ hkmem)
      · have hmem : e ∈ g.outgoing w.1 := by rw [he]; exact List.mem_singleton.mpr rfl
        rw [target?, node?_grow (isLink_iff.mp (mem_outgoing.mp hmem).2.2).2]
        exact ht
    · exact ⟨out, m, hnew.outgoing_self hlink, hnew.target?_grow, hleads⟩
  enters := by
    refine List.forall_mem_append.mpr ⟨fun i hi c hc => ?_, List.forall_mem_singleton.mpr ?_⟩
    · have hlast : ([out].filter fun e => e.source == i.id) = [] := by
        have hne := hnew.beq_fresh (mem_ids.mpr ⟨i, hi, rfl⟩)
        rw [beq_eq_false_iff_ne] at hne
        simp [hnew.exit, hne.symm]
      show ((g.edges ++ (into ++ [out])).filter _).map _ = _
      rw [List.filter_append, List.filter_append, hlast, List.append_nil, List.map_append,
        h.enters i hi c hc, hinto i hi c hc, Import.linksFor, Import.linksFor, List.zipIdx_append,
        List.filter_append, List.map_append]
      cases hfor : r.isFor c.tag <;> simp [hfor]
    · intro c hc
      have hkind := Node.kind_of_inbound? hc
      rw [hnew.routing] at hkind
      cases hkind
  asked := Import.AsksFor.append h.asked n hasked

end Graph

/-! ## Taking over rules -/

namespace Import.Draft

variable {d : Draft} {ws : List (String × Document.Rule)} {r : Document.Rule} {index : Nat}

/-- A rule with one inbound at most is entered from an inbound just when it is for it. -/
theorem mem_sources_iff (hids : (d.nodes.map Placed.id).Nodup) (htags : DistinctInbounds d.nodes)
    {listed : List String} (hfew : listed.length ≤ 1)
    (hknown : ∀ tag ∈ listed, (d.inbound? tag).isSome = true) {i : Node} (hi : i ∈ d.nodes)
    {c : Inbound} (hc : i.inbound? = some c) :
    i.id ∈ d.sources listed ↔ listed.all (· == c.tag) = true := by
  rw [mem_sources hids htags hknown hi hc]
  match listed with
  | [] => simp
  | [tag] =>
    have hself : c.tag = tag ↔ tag = c.tag := eq_comm
    simp [hself]
  | _ :: _ :: _ => simp at hfew

/-- Of the new edges one leaves an inbound that the rule is for, and none another. -/
theorem filter_into {into : List Edge} {sources : List String} {i : Node} {target : String}
    {priority : UInt32}
    (honce : (into.map fun e => (e.source, e.target)).Nodup)
    (hinto : ∀ e ∈ into, e.source ∈ sources ∧ e.target = target ∧ e.priority = priority)
    (hall : ∀ source ∈ sources, ∃ e ∈ into, e.source = source) :
    ((into.filter fun e => e.source == i.id).map fun e => (e.target, e.priority)) =
      if i.id ∈ sources then [(target, priority)] else [] := by
  have hends : ∀ e ∈ into.filter (fun e => e.source == i.id),
      (e.source, e.target) = (i.id, target) ∧ (e.target, e.priority) = (target, priority) := by
    intro e he
    obtain ⟨he, hsource⟩ := List.mem_filter.mp he
    obtain ⟨-, htarget, hpriority⟩ := hinto e he
    rw [beq_iff_eq.mp hsource, htarget, hpriority]
    exact ⟨rfl, rfl⟩
  have hfew := (List.filter_sublist (p := fun e : Edge => e.source == i.id)).map
    (fun e => (e.source, e.target)) |>.nodup honce
  split
  case isTrue hi =>
    obtain ⟨e, he, hsource⟩ := hall i.id hi
    have hmem : e ∈ into.filter fun e => e.source == i.id :=
      List.mem_filter.mpr ⟨he, beq_iff_eq.mpr hsource⟩
    match hleft : into.filter fun e => e.source == i.id with
    | [] => simp [hleft] at hmem
    | [e'] =>
      rw [hleft] at hends
      rw [hleft, List.map_cons, List.map_nil, (hends e' List.mem_cons_self).2]
    | e₁ :: e₂ :: rest =>
      rw [hleft] at hends hfew
      have hsame := (hends e₁ (by simp)).1.trans (hends e₂ (by simp)).1.symm
      simp [hsame] at hfew
  case isFalse hi =>
    rw [List.map_eq_nil_iff, List.filter_eq_nil_iff]
    intro e he hsource
    exact hi (beq_iff_eq.mp hsource ▸ (hinto e he).1)

/-- A rule that is taken over silently becomes a node of its own. -/
theorem Sound.addRule_routed (h : d.Sound) (hrouted : d.graph.Routed ws)
    (htags : DistinctInbounds d.nodes) (hfew : (r.inboundTag.getD []).length ≤ 1)
    (hsilent : (d.addRule true ws.length r).warnings = []) :
    ∃ n, (d.addRule true ws.length r).graph.Routed (ws ++ [(n.id, r)]) ∧
      (d.addRule true ws.length r).nodes = d.nodes ++ [n] ∧ n.kind = .routing := by
  obtain ⟨n, m, into, out, hgraph, hnew, hrole, hlast, hknown, hentered, hinto⟩ :=
    h.addRule_grown hsilent
  have honce : (into.map fun e => (e.source, e.target)).Nodup := by
    have hdrawn := (h.addRule true ws.length r).drawn.once
    rw [show (d.addRule true ws.length r).edges = d.edges ++ (into ++ [out]) from
      congrArg Graph.edges hgraph, List.map_append, List.map_append] at hdrawn
    exact (List.nodup_append'.mp (List.nodup_append'.mp hdrawn).2.1).1
  refine ⟨n, ?_, congrArg Graph.nodes hgraph, hnew.routing⟩
  rw [hgraph]
  refine hrouted.grow h.ids h.layered.isLink hnew hrole hlast.leadsTo (fun i hi c hc => ?_)
    (exists_of_known hknown)
  have hends : ∀ e ∈ into, e.source ∈ d.sources (r.inboundTag.getD []) ∧ e.target = n.id ∧
      e.priority = (Text.word? ws.length).getD defaultPriority :=
    fun e he => ⟨(hinto e he).1, (hnew.entries e he).2, (hinto e he).2⟩
  rw [filter_into honce hends hentered]
  refine if_congr ?_ rfl rfl
  exact mem_sources_iff h.ids htags hfew hknown hi hc

/-- The rules of a list become nodes in their order. -/
theorem Sound.addAll_routed (h : d.Sound) (hrouted : d.graph.Routed ws)
    (htags : DistinctInbounds d.nodes) (entries : List Json)
    (hfew : ∀ r ∈ entries.filterMap fun entry => (Document.Rule.codec.readValue entry).toOption,
      (r.inboundTag.getD []).length ≤ 1)
    (hsilent : (addAll Document.Rule.codec .rules (Draft.addRule true) ws.length entries d).warnings =
      []) :
    ∃ ws', (addAll Document.Rule.codec .rules (Draft.addRule true) ws.length entries d).graph.Routed
        ws' ∧
      ws'.map Prod.snd = ws.map Prod.snd ++
        entries.filterMap fun entry => (Document.Rule.codec.readValue entry).toOption := by
  refine (addAll_rules (P := fun ws d => d.Sound ∧ d.graph.Routed ws ∧ DistinctInbounds d.nodes)
    entries ?step ⟨h, hrouted, htags⟩ hsilent).imp fun ws' hfinal => ⟨hfinal.1.2.1, hfinal.2⟩
  rintro r hr ws d ⟨hsound, hrouted, htags⟩ hquiet
  obtain ⟨n, hnext, hnodes, hkind⟩ := hsound.addRule_routed hrouted htags (hfew r hr) hquiet
  refine ⟨n.id, hsound.addRule true ws.length r, hnext, ?_⟩
  rw [hnodes]
  exact htags.append (by simp [hkind])

theorem Unruled.routed (h : d.Unruled) (hids : (d.nodes.map Placed.id).Nodup) :
    d.graph.Routed [] :=
  Graph.routed_nil h.nodes (h.source_ne hids)

end Import.Draft

namespace Import

/-- A document that is taken over silently is made into a graph of its rules. -/
theorem routed_draft {o : Options} (ho : o.ruleNodes = true) {doc : Json}
    (hsilent : (draft o doc).warnings = []) (htags : DistinctInbounds (draft o doc).nodes)
    (hfew : ∀ r ∈ rulesOf doc, (r.inboundTag.getD []).length ≤ 1) :
    ∃ ws, (draft o doc).graph.Routed ws ∧ ws.map Prod.snd = rulesOf doc := by
  rw [DistinctInbounds, inbounds_draft ho] at htags
  rw [draft_eq, ho] at hsilent ⊢
  have hsound := sound_unruled doc
  exact hsound.addAll_routed ((unruled_unruled doc).routed hsound.ids) htags _ hfew hsilent

end Import

/-! ## Links of inbounds -/

namespace Import

theorem linksFor_targets (tag : String) (ws : List (String × Document.Rule)) :
    (linksFor tag ws).map Prod.fst = (ws.filter fun w => w.2.isFor tag).map Prod.fst := by
  have hplaces : (ws.filter fun w => w.2.isFor tag) =
      (ws.zipIdx.filter fun x => x.1.2.isFor tag).map Prod.fst := by
    conv => lhs; rw [← List.zipIdx_map_fst 0 ws, List.filter_map]
    rfl
  rw [hplaces, linksFor, List.map_map, List.map_map]
  rfl

/-- As long as places fit into priorities, the links stand in their order. -/
theorem linksFor_sorted (tag : String) {ws : List (String × Document.Rule)}
    (hfew : ws.length ≤ 2 ^ 32) : (linksFor tag ws).Pairwise fun a b => a.2 ≤ b.2 := by
  have hplaces : ws.zipIdx.Pairwise fun x y => x.2 < y.2 := by
    rw [← List.pairwise_map (f := Prod.snd) (R := (· < ·)), List.zipIdx_map_snd]
    exact List.pairwise_lt_range'
  rw [linksFor, List.pairwise_map]
  refine (hplaces.filter _).imp_of_mem fun {x y} hx hy hxy => ?_
  have hlast : y.2 < 2 ^ 32 :=
    Nat.lt_of_lt_of_le (List.mem_zipIdx (List.mem_filter.mp hy).1).2.1 (by omega)
  rw [Text.word?_of_lt (Nat.lt_trans hxy hlast), Text.word?_of_lt hlast, Option.getD_some,
    Option.getD_some, UInt32.le_iff_toNat_le, UInt32.toNat_ofNat_of_lt' (Nat.lt_trans hxy hlast),
    UInt32.toNat_ofNat_of_lt' hlast]
  exact Nat.le_of_lt hxy

end Import

namespace Graph

open Trace

variable {g : Graph} {ws : List (String × Document.Rule)} {i : Node} {c : Inbound}

/-- The nodes that the links of a node lead to. -/
theorem exits_ids (id : String) :
    ((exits g id).map fun x => x.2.id) = (g.outgoing id).map Edge.target := by
  have htargets : ∀ e ∈ g.outgoing id,
      ((g.target? e).map fun n => (e, n)).map (fun x : Exit => x.2.id) = some e.target := by
    intro e he
    obtain ⟨-, n, -, hn⟩ := isLink_iff_ends.mp (mem_outgoing.mp he).2.2
    rw [hn]
    exact congrArg some (node?_id hn)
  rw [exits, List.map_filterMap, List.filterMap_congr htargets, List.filterMap_eq_map']

namespace Routed

variable (h : g.Routed ws) (hlayered : g.Layered) (hi : i ∈ g.nodes) (hc : i.inbound? = some c)

include h hlayered hi hc

/-- The links of an inbound lead to the rules that are for it. -/
theorem outgoing_perm : ((g.outgoing i.id).map Edge.target).Perm
    ((ws.filter fun w => w.2.isFor c.tag).map Prod.fst) := by
  have htargets := congrArg (List.map Prod.fst) (h.enters i hi c hc)
  rw [List.map_map, Import.linksFor_targets] at htargets
  rw [← htargets, outgoing, linksThat_eq hlayered.isLink]
  exact (byPriority_perm _).map _

/-- Best first, they lead to them in the order of the document. -/
theorem outgoing_targets (hfew : ws.length ≤ 2 ^ 32) : (g.outgoing i.id).map Edge.target =
    (ws.filter fun w => w.2.isFor c.tag).map Prod.fst := by
  have hlinks := h.enters i hi c hc
  have hsorted : (g.edges.filter fun e => e.source == i.id).Pairwise
      fun a b => a.priority ≤ b.priority := by
    have hpairs := Import.linksFor_sorted c.tag hfew
    rw [← hlinks, List.pairwise_map] at hpairs
    exact hpairs
  have htargets := congrArg (List.map Prod.fst) hlinks
  rw [List.map_map, Import.linksFor_targets] at htargets
  rw [outgoing, linksThat_eq hlayered.isLink, byPriority_eq_self hsorted]
  exact htargets

end Routed

/-! ## The first rule that matches -/

namespace Routed

/-- The tags of inbounds are trimmed, and rules list one inbound at most. -/
structure Plain (g : Graph) (ws : List (String × Document.Rule)) : Prop where
  tight : ∀ n ∈ g.nodes, n.kind = .inbound → ∀ tag, n.tag? = some tag → Text.Tight tag
  single : ∀ w ∈ ws, (w.2.inboundTag.getD []).length ≤ 1

variable [Rule.Patterns] (h : g.Routed ws) (hlayered : g.Layered) (hplain : Plain g ws)
  (s : Rule.Subject)

include h hlayered hplain

/-- The node of a rule answers the requests that the rule accepts. -/
theorem answers_eq {w : String × Document.Rule} (hw : w ∈ ws) :
    Compile.answers g s w.1 = w.2.present.accepts s := by
  obtain ⟨n, hn, hid, tag, hrole⟩ := Import.MadeOf.of_mem h.nodes hw
  have hrouting : n.routing? = some ⟨tag, Import.predicatesOf w.2⟩ :=
    Node.routing?_eq_some.mpr hrole
  have htight : ∀ tag ∈ w.2.inboundTag.getD [], Text.Tight tag := by
    intro tag htag
    obtain ⟨m, hm, hkind, hmtag⟩ := h.asked w hw tag htag
    exact hplain.tight m hm hkind tag hmtag
  rw [Compile.answers, Compile.routingOf?_eq hlayered.ids, ← hid, node?_of_mem hlayered.ids hn,
    Option.bind_some, hrouting, Document.Rule.present_accepts (hplain.single w hw) htight]
  rfl

omit h hplain in
theorem leadsToMatch_eq {x : Exit} {id : String} (hx : x ∈ exits g id) :
    leadsToMatch s x = Compile.answers g s x.2.id := by
  obtain ⟨-, -, -, ht⟩ := mem_exits.mp hx
  rw [Compile.answers, Compile.routingOf?_eq hlayered.ids,
    node?_of_mem hlayered.ids (node?_mem ht), Option.bind_some, leadsToMatch]
  cases x.2.routing? <;> rfl

variable (hi : i ∈ g.nodes) (hc : i.inbound? = some c)

include hi hc

omit [Rule.Patterns] hplain in
/-- A link of an inbound leads to a rule. -/
theorem of_mem_exits {x : Exit} (hx : x ∈ exits g i.id) :
    ∃ w ∈ ws, x.2.id = w.1 ∧ x.2.kind = .routing := by
  have hmem : x.2.id ∈ (ws.filter fun w => w.2.isFor c.tag).map Prod.fst := by
    refine (h.outgoing_perm hlayered hi hc).mem_iff.mp ?_
    rw [← exits_ids]
    exact List.mem_map_of_mem hx
  obtain ⟨w, hw, hid⟩ := List.mem_map.mp hmem
  have hws := (List.mem_filter.mp hw).1
  obtain ⟨n, hn, hself, tag, hrole⟩ := Import.MadeOf.of_mem h.nodes hws
  obtain ⟨-, -, -, ht⟩ := mem_exits.mp hx
  obtain rfl : x.2 = n :=
    List.inj_on_of_nodup_map hlayered.ids (node?_mem ht) hn (hid.symm.trans hself.symm)
  exact ⟨w, hws, hid.symm, congrArg Role.kind hrole⟩

/-- An inbound passes a request to the node of the first rule that accepts it. -/
theorem find?_exits (hfew : ws.length ≤ 2 ^ 32) (hs : s.inboundTag = c.tag) :
    (((exits g i.id).find? (leadsToMatch s)).map fun x => x.2.id) =
      (ws.find? fun w => w.2.present.accepts s).map Prod.fst := by
  have hnodes : (exits g i.id).find? (leadsToMatch s) =
      (exits g i.id).find? (Compile.answers g s ∘ fun x => x.2.id) :=
    Order.find?_congr fun x hx => leadsToMatch_eq hlayered s hx
  rw [hnodes, ← List.find?_map, exits_ids, h.outgoing_targets hlayered hi hc hfew, List.find?_map,
    List.find?_filter]
  congr 1
  refine Order.find?_congr fun w hw => ?_
  rw [Function.comp_apply, h.answers_eq hlayered hplain s hw]
  cases haccepts : w.2.present.accepts s with
  | false => simp
  | true =>
    have hfor := Document.Rule.isFor_of_accepts (hplain.single w hw) haccepts
    rw [hs] at hfor
    simp [hfor]

/-- If no rule accepts a request, no link leads to a match. -/
theorem find?_exits_none (hnone : ∀ w ∈ ws, w.2.present.accepts s = false) :
    (exits g i.id).find? (leadsToMatch s) = none := by
  refine List.find?_eq_none.mpr fun x hx => ?_
  obtain ⟨w, hw, hid, -⟩ := h.of_mem_exits hlayered hi hc hx
  rw [leadsToMatch_eq hlayered s hx, hid, h.answers_eq hlayered hplain s hw, hnone w hw]
  exact Bool.false_ne_true

end Routed
end Graph

/-! ## Requests -/

/-- What rules are asked about a request. -/
def Trace.Request.subject (r : Trace.Request) : Rule.Subject :=
  ⟨r.domain, r.protocol, r.port, r.inboundTag⟩

namespace Graph.Routed

open Trace

variable [Rule.Patterns] {g : Graph} {ws : List (String × Document.Rule)} {i : Node} {c : Inbound}
  {r : Request} (h : g.Routed ws) (hlayered : g.Layered) (hplain : Plain g ws) (hi : i ∈ g.nodes)
  (hc : i.inbound? = some c) (hr : r.inboundTag = c.tag)

include h hlayered in
/-- The node of a rule passes everything on to the target of the rule. -/
theorem decision_rule (pick : Picker) (calls : List Nat) {w : String × Document.Rule}
    (hw : w ∈ ws) {n : Node} (hn : n ∈ g.nodes) (hid : n.id = w.1) :
    ∃ e m, decision g pick r calls n = .pass .ruleFollowed (e, m) calls ∧ w.2.leadsTo m := by
  obtain ⟨k, hk, hkid, tag, hrole⟩ := Import.MadeOf.of_mem h.nodes hw
  obtain rfl : k = n := List.inj_on_of_nodup_map hlayered.ids hk hn (hkid.trans hid.symm)
  obtain ⟨e, m, hlinks, htarget, hleads⟩ := h.leads w hw
  have hexits : exits g k.id = [(e, m)] := by
    rw [exits, hid, hlinks, List.filterMap_cons, htarget]
    rfl
  refine ⟨e, m, ?_, hleads⟩
  simp only [decision, hrole, hexits, atRouting]

include h hlayered hplain hi hc hr

/-- An inbound passes a request to the node of the first rule that accepts it. -/
theorem decision_inbound (hfew : ws.length ≤ 2 ^ 32) (pick : Picker) (calls : List Nat)
    {w : String × Document.Rule}
    (hfirst : (ws.find? fun w => w.2.present.accepts r.subject) = some w) {n : Node}
    (hn : n ∈ g.nodes) (hid : n.id = w.1) :
    ∃ e, decision g pick r calls i = .pass (.ruleMatched n.displayName) (e, n) calls := by
  have hfound := h.find?_exits hlayered hplain r.subject hi hc hfew hr
  rw [hfirst, Option.map_some, Option.map_eq_some_iff] at hfound
  obtain ⟨⟨e, k⟩, hx, hself⟩ := hfound
  have hexit := List.mem_of_find?_eq_some hx
  obtain ⟨-, -, -, ht⟩ := mem_exits.mp hexit
  obtain rfl : k = n :=
    List.inj_on_of_nodup_map hlayered.ids (node?_mem ht) hn (hself.trans hid.symm)
  refine ⟨e, ?_⟩
  simp only [Request.subject, hr] at hx
  simp only [decision, Node.inbound?_eq_some.mp hc, atInbound, hx]
  rw [if_neg (by simpa using List.ne_nil_of_mem hexit)]

/-- Whichever choices are made, a request goes from its inbound to the node of the
first rule that accepts it, and on to the target of this rule. -/
theorem run_matched (htags : DistinctInbounds g.nodes) (hfew : ws.length ≤ 2 ^ 32) (pick : Picker)
    (calls : List Nat) {before after : List (String × Document.Rule)}
    {w : String × Document.Rule} (hws : ws = before ++ w :: after)
    (hbefore : ∀ w' ∈ before, w'.2.present.accepts r.subject = false)
    (haccepts : w.2.present.accepts r.subject = true) :
    ∃ n m rest, (run g pick calls r).steps.map Step.node = i :: n :: m :: rest ∧
      (g.nodes.filter fun n => n.kind = .routing)[before.length]? = some n ∧
      n.role = .routing ⟨Import.Draft.ruleTag (before.length + 1) w.2,
        Import.predicatesOf w.2⟩ ∧ w.2.leadsTo m := by
  obtain ⟨n, hplace, hid, hrole⟩ := Import.MadeOf.exists_node h.nodes hws
  have hn : n ∈ g.nodes := (List.mem_filter.mp (List.mem_of_getElem? hplace)).1
  have hkind : n.kind = .routing := congrArg Role.kind hrole
  have hw : w ∈ ws := by simp [hws]
  -- the inbound finds the node of the rule
  have hfirst : (ws.find? fun w => w.2.present.accepts r.subject) = some w := by
    rw [hws, List.find?_append, List.find?_eq_none.mpr fun w' hw' => by simp [hbefore w' hw'],
      Option.none_or, List.find?_cons, haccepts]
  obtain ⟨e, hpass⟩ := h.decision_inbound hlayered hplain hi hc hr hfew pick calls hfirst hn hid
  obtain ⟨e', m, hfollow, hleads⟩ := h.decision_rule hlayered pick calls (r := r) hw hn hid
  have hnew : n.id ∉ [i.id] := by
    rw [List.mem_singleton]
    intro hsame
    obtain rfl : n = i := List.inj_on_of_nodup_map hlayered.ids hn hi hsame
    rw [Node.kind_of_inbound? hc] at hkind
    cases hkind
  have hway : Way g pick r [] calls i (run g pick calls r) :=
    run_way (entrance?_eq_some htags hi hc hr)
  obtain ⟨t, hrun, hon⟩ := hway.onward (by simp) hpass
  obtain ⟨t', rfl, hthere⟩ := hon.onward hnew hfollow
  obtain ⟨step, steps, hsteps, rfl⟩ := hthere.head
  refine ⟨n, step.node, steps.map Step.node, ?_, hplace, hrole, hleads⟩
  rw [hrun, Onto, Onto, hsteps]
  rfl

/-- If no rule accepts a request, it stays at its inbound. -/
theorem run_unmatched (htags : DistinctInbounds g.nodes) (pick : Picker) (calls : List Nat)
    (hnone : ∀ w ∈ ws, w.2.present.accepts r.subject = false) :
    (run g pick calls r).steps.map Step.node = [i] ∧ (run g pick calls r).success = false := by
  have hmatch := h.find?_exits_none hlayered hplain r.subject hi hc hnone
  have hpast : (exits g i.id).find? leadsPastRules = none := by
    refine List.find?_eq_none.mpr fun x hx => ?_
    obtain ⟨-, -, -, hkind⟩ := h.of_mem_exits hlayered hi hc hx
    simp [leadsPastRules, hkind]
  have hkeep : ∃ remark ending, decision g pick r calls i = .keep remark ending := by
    simp only [Request.subject, hr] at hmatch
    simp only [decision, Node.inbound?_eq_some.mp hc, atInbound, hmatch, hpast]
    split <;> exact ⟨_, _, rfl⟩
  obtain ⟨remark, ending, hkeep⟩ := hkeep
  have hway : Way g pick r [] calls i (run g pick calls r) :=
    run_way (entrance?_eq_some htags hi hc hr)
  have hsteps := hway.steps_kept (by simp) hkeep
  refine ⟨by rw [hsteps]; rfl, ?_⟩
  -- an inbound delivers nothing
  obtain ⟨s, hlast, hdelivers, -⟩ := hway.last hi
  rw [hsteps] at hlast
  obtain rfl := Option.some.inj hlast
  have hnot : ¬ delivers g i := by simp [delivers, Node.kind_of_inbound? hc]
  rw [success, ← Bool.not_eq_true, hdelivers]
  exact fun hd => hnot hd.2

end Graph.Routed

namespace Import

open Trace

/-- The graph that is handed over is made of the rules of the document. -/
theorem routed_outcome {o : Options} (ho : o.ruleNodes = true) {doc : Json}
    (hsilent : (draft o doc).warnings = [])
    (htags : DistinctInbounds ((draft o doc).outcome o).nodes)
    (hsingle : ∀ rule ∈ rulesOf doc, (rule.inboundTag.getD []).length ≤ 1) :
    ∃ ws, ws.map Prod.snd = rulesOf doc ∧
      Graph.Routed ⟨((draft o doc).outcome o).nodes, ((draft o doc).outcome o).edges⟩ ws ∧
      Graph.Routed.Plain ⟨((draft o doc).outcome o).nodes, ((draft o doc).outcome o).edges⟩ ws := by
  have horderly := orderly_draft ho doc
  have hplaced := unplaced_outcome horderly.made o
  rw [DistinctInbounds, inbounds_outcome horderly.made o] at htags
  obtain ⟨ws, hrouted, hrules⟩ := routed_draft ho hsilent htags hsingle
  rw [← hplaced] at hrouted
  refine ⟨ws, hrules, hrouted.of_unplaced, ?_⟩
  constructor
  case tight => exact tight_inbounds ho hsilent
  case single =>
    intro w hw
    exact hsingle w.2 (hrules ▸ List.mem_map_of_mem hw)

/-- A document that is taken over silently, with rules as nodes, sends a request where
its first matching rule says. Blank texts and empty lists of a rule ask for nothing.
If no rule matches, the request gets no further than its inbound. -/
theorem config_routes [Rule.Patterns] {text : String} {o : Options} {out : Outcome} {doc : Json}
    (h : config text o = .ok out) (hdoc : objectOf text = .ok doc) (ho : o.ruleNodes = true)
    (hsilent : out.summary.warnings = []) (htags : DistinctInbounds out.nodes)
    (hsingle : ∀ rule ∈ rulesOf doc, (rule.inboundTag.getD []).length ≤ 1) {i : Node}
    {c : Inbound} (hi : i ∈ out.nodes) (hc : i.inbound? = some c) (pick : Picker)
    (calls : List Nat) {r : Request} (hr : r.inboundTag = c.tag) :
    (∀ before rule after, rulesOf doc = before ++ rule :: after →
      (rulesOf doc).length ≤ 2 ^ 32 →
      (∀ other ∈ before, other.present.accepts r.subject = false) →
      rule.present.accepts r.subject = true →
      ∃ n m rest, (run ⟨out.nodes, out.edges⟩ pick calls r).steps.map Step.node =
          i :: n :: m :: rest ∧
        (out.nodes.filter fun n => n.kind = .routing)[before.length]? = some n ∧
        n.role = .routing ⟨Draft.ruleTag (before.length + 1) rule, predicatesOf rule⟩ ∧
        rule.leadsTo m) ∧
    ((∀ rule ∈ rulesOf doc, rule.present.accepts r.subject = false) →
      (run ⟨out.nodes, out.edges⟩ pick calls r).steps.map Step.node = [i] ∧
        (run ⟨out.nodes, out.edges⟩ pick calls r).success = false) := by
  have hlayered := layered_outcome h
  obtain rfl := outcome_eq h hdoc
  obtain ⟨ws, hrules, hrouted, hplain⟩ := routed_outcome ho hsilent htags hsingle
  constructor
  case left =>
    intro before rule after hsplit hfew hbefore haccepts
    obtain ⟨before', tail, rfl, rfl, htail⟩ := List.map_eq_append_iff.mp (hrules.trans hsplit)
    obtain ⟨w, after', rfl, rfl, rfl⟩ := List.map_eq_cons_iff.mp htail
    rw [List.length_map]
    refine hrouted.run_matched hlayered hplain hi hc hr htags ?_ pick calls rfl ?_ haccepts
    · rwa [← hrules, List.length_map] at hfew
    · exact fun w' hw' => hbefore w'.2 (List.mem_map_of_mem hw')
  case right =>
    intro hnone
    refine hrouted.run_unmatched hlayered hplain hi hc hr htags pick calls fun w hw => ?_
    exact hnone w.2 (hrules ▸ List.mem_map_of_mem hw)

/-! ### An instance -/

/-- A rule that blocks one domain, and one for web pages. -/
def filtering : String :=
  "\x7b\"inbounds\": [\x7b\"port\": 1080, \"protocol\": \"socks\", \"tag\": \"in\"\x7d], " ++
    "\"outbounds\": [\x7b\"protocol\": \"freedom\", \"tag\": \"direct\"\x7d, " ++
    "\x7b\"protocol\": \"blackhole\", \"tag\": \"block\"\x7d], " ++
    "\"routing\": \x7b\"rules\": [\x7b\"domain\": [\"domain:ads.example\"], " ++
    "\"port\": \"  \", \"outboundTag\": \"block\"\x7d, " ++
    "\x7b\"inboundTag\": [\"in\"], \"port\": \"80\", \"outboundTag\": \"direct\"\x7d]\x7d\x7d"

/-- The first of its rules. -/
def blockingRule : Document.Rule where
  type := "field"
  ruleTag := none
  inboundTag := none
  domain := some ["domain:ads.example"]
  ip := none
  port := some "  "
  network := none
  protocol := none
  outboundTag := some "block"
  balancerTag := none

/-- The other one. -/
def pageRule : Document.Rule where
  type := "field"
  ruleTag := none
  inboundTag := some ["in"]
  domain := none
  ip := none
  port := some "80"
  network := none
  protocol := none
  outboundTag := some "direct"
  balancerTag := none

attribute [local instance] Rule.Patterns.empty

theorem config_routes_filtering :
    ∃ out i, config filtering .usual = .ok out ∧
      (∃ n m rest, (run ⟨out.nodes, out.edges⟩ firstPicker [] ⟨"ads.example", "tcp", 80, "in"⟩).steps.map
        Step.node = i :: n :: m :: rest ∧ blockingRule.leadsTo m) ∧
      (run ⟨out.nodes, out.edges⟩ firstPicker [] ⟨"page.example", "tcp", 443, "in"⟩).steps.map
        Step.node = [i] := by
  have hread : (objectOf filtering).toOption.map (fun doc =>
      (rulesOf doc, (doc.get? "inbounds").isNone, (draft .usual doc).warnings,
        ((draft .usual doc).nodes.filterMap Node.inbound?).map Inbound.tag)) =
        some ([blockingRule, pageRule], false, [], ["in"]) := by
    decide +kernel
  cases hdoc : objectOf filtering with
  | error e =>
    rw [hdoc] at hread
    cases hread
  | ok doc =>
    rw [hdoc] at hread
    simp only [Except.toOption, Option.map_some, Option.some.injEq, Prod.mk.injEq] at hread
    obtain ⟨hrules, hinbounds, hsilent, htags⟩ := hread
    have hout : config filtering .usual = .ok ((draft .usual doc).outcome .usual) := by
      rw [config, hdoc]
      simp only [bind, Except.bind, hinbounds, Bool.false_and, Bool.false_eq_true, if_false]
      rfl
    rw [← inbounds_outcome (orderly_draft rfl doc).made .usual] at htags
    have hsingle : ∀ rule ∈ rulesOf doc, (rule.inboundTag.getD []).length ≤ 1 := by
      rw [hrules]
      decide
    have hdistinct : DistinctInbounds ((draft .usual doc).outcome .usual).nodes := by
      rw [DistinctInbounds, htags]
      exact List.nodup_singleton _
    obtain ⟨c, hc, htag⟩ := List.mem_map.mp (htags ▸ List.mem_singleton.mpr rfl)
    obtain ⟨i, hi, hic⟩ := List.mem_filterMap.mp hc
    obtain ⟨n, m, rest, hsteps, -, -, hleads⟩ :=
      (config_routes hout hdoc rfl hsilent hdistinct hsingle hi hic firstPicker []
        (r := ⟨"ads.example", "tcp", 80, "in"⟩) htag.symm).1 [] blockingRule [pageRule] hrules
        (by rw [hrules]; decide) (by simp) (by decide +kernel)
    have hstays := (config_routes hout hdoc rfl hsilent hdistinct hsingle hi hic firstPicker []
      (r := ⟨"page.example", "tcp", 443, "in"⟩) htag.symm).2 (by rw [hrules]; decide +kernel)
    exact ⟨_, i, hout, ⟨n, m, rest, hsteps, hleads⟩, hstays.1⟩

end Import

end ProxyPlan
