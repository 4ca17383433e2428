/-
ProxyPlan.Proofs.ListedInbounds — rules that list several inbounds.

A rule of a document may list any number of inbounds, a routing node asks for one at
most. Taking over keeps the first inbound that is listed, and enters the node from all of
them (`Graph.Listed`). Everything else that the rule asks for is in the predicates
(`Document.Rule.predicatesMatch_predicatesOf`). So a request that enters at the first
listed inbound is matched just as by the rule; one that enters at another listed inbound is
led to the node and not matched there (`crowded_second`), and a rule that lists no inbound
is matched wherever a request enters.
-/
import ProxyPlan.Proofs.Rules

namespace ProxyPlan

/-! ## Nodes of rules and their inbounds -/

/-- The routing nodes have been made of these rules, and each is entered from the inbounds
that its rule serves. -/
structure Graph.Listed (g : Graph) (ws : List (String × Document.Rule)) : Prop where
  nodes : Import.MadeOf g.nodes ws
  enters : ∀ w ∈ ws, ∀ i ∈ g.nodes, ∀ c, i.inbound? = some c →
    ((∃ e ∈ g.edges, e.source = i.id ∧ e.target = w.1) ↔ w.2.serves c.tag = true)
  asked : Import.AsksFor g.nodes ws

namespace Graph

/-! ### Edges of a new rule -/

namespace RuleEdges

variable {g : Graph} {n m i : Node} {into : List Edge} {out : Edge}
  (h : g.RuleEdges n m into out) (hi : i ∈ g.nodes)

include h hi

theorem exit_ne : out.source ≠ i.id := by
  intro hsource
  rw [h.exit] at hsource
  exact h.fresh (mem_ids.mpr ⟨i, hi, hsource.symm⟩)

/-- No new edge leads from an old node to another. -/
theorem leads_old {id : String} (hid : id ∈ g.ids) :
    (∃ e ∈ g.edges ++ (into ++ [out]), e.source = i.id ∧ e.target = id) ↔
      ∃ e ∈ g.edges, e.source = i.id ∧ e.target = id := by
  constructor
  · rintro ⟨e, he, hsource, htarget⟩
    rcases List.mem_append.mp he with he | he
    · exact ⟨e, he, hsource, htarget⟩
    rcases List.mem_append.mp he with he | he
    · rw [(h.entries e he).2] at htarget
      exact absurd (htarget ▸ hid) h.fresh
    · obtain rfl := List.mem_singleton.mp he
      exact absurd hsource (h.exit_ne hi)
  · rintro ⟨e, he, hends⟩
    exact ⟨e, List.mem_append_left _ he, hends⟩

/-- No other edges lead to the new node than the ones that enter it. -/
theorem leads_new (hlink : ∀ e ∈ g.edges, g.isLink e = true) :
    (∃ e ∈ g.edges ++ (into ++ [out]), e.source = i.id ∧ e.target = n.id) ↔
      ∃ e ∈ into, e.source = i.id := by
  constructor
  · rintro ⟨e, he, hsource, htarget⟩
    rcases List.mem_append.mp he with he | he
    · have hthere : e.target ∈ g.ids := (isLink_iff.mp (hlink e he)).2
      rw [htarget] at hthere
      exact absurd hthere h.fresh
    rcases List.mem_append.mp he with he | he
    · exact ⟨e, he, hsource⟩
    · obtain rfl := List.mem_singleton.mp he
      exact absurd hsource (h.exit_ne hi)
  · rintro ⟨e, he, hsource⟩
    exact ⟨e, List.mem_append_right _ (List.mem_append_left _ he), hsource, (h.entries e he).2⟩

end RuleEdges

/-! ### From rule to rule -/

variable {g : Graph} {ws : List (String × Document.Rule)}

theorem listed_nil (hnodes : ∀ n ∈ g.nodes, n.kind ≠ .routing) : g.Listed [] where
  nodes := Import.madeOf_nil hnodes
  enters := by simp
  asked := by simp [Import.AsksFor]

/-- Moving nodes does not change what the graph has been made of. -/
theorem Listed.of_unplaced (h : g.unplaced.Listed ws) : g.Listed ws where
  nodes := Import.MadeOf.of_unplaced h.nodes
  enters w hw i hi c hc := h.enters w hw i.unplaced (List.mem_map_of_mem hi) c hc
  asked := Import.AsksFor.of_unplaced h.asked

/-- One rule more: a new node, entered from the inbounds that the rule serves. -/
theorem Listed.grow (h : g.Listed ws) (hlink : ∀ e ∈ g.edges, g.isLink e = true) {n m : Node}
    {r : Document.Rule} {into : List Edge} {out : Edge} (hnew : g.RuleEdges n m into out)
    (hrole : n.role = .routing ⟨Import.Draft.ruleTag (ws.length + 1) r, Import.predicatesOf r⟩)
    (hinto : ∀ i ∈ g.nodes, ∀ c, i.inbound? = some c →
      ((∃ e ∈ into, e.source = i.id) ↔ r.serves c.tag = true))
    (hasked : ∀ tag ∈ r.inboundTag.getD [], ∃ n ∈ g.nodes, n.kind = .inbound ∧ n.tag? = some tag) :
    (g.grow [n] (into ++ [out])).Listed (ws ++ [(n.id, r)]) where
  nodes := Import.MadeOf.append h.nodes hnew.routing hrole
  asked := Import.AsksFor.append h.asked n hasked
  enters := by
    -- the new node is no inbound
    have hold : ∀ i ∈ g.nodes ++ [n], ∀ c, i.inbound? = some c → i ∈ g.nodes := by
      intro i hi c hc
      refine (List.mem_append.mp hi).resolve_right fun hself => ?_
      obtain rfl := List.mem_singleton.mp hself
      have hkind := Node.kind_of_inbound? hc
      rw [hnew.routing] at hkind
      cases hkind
    refine List.forall_mem_append.mpr ⟨?old, List.forall_mem_singleton.mpr ?new⟩
    case old =>
      intro w hw i hi c hc
      obtain ⟨k, hk, hkid, -⟩ := Import.MadeOf.of_mem h.nodes hw
      rw [← h.enters w hw i (hold i hi c hc) c hc]
      exact hnew.leads_old (hold i hi c hc) (mem_ids.mpr ⟨k, hk, hkid⟩)
    case new =>
      intro i hi c hc
      rw [← hinto i (hold i hi c hc) c hc]
      exact hnew.leads_new (hold i hi c hc) hlink

end Graph

namespace Import.Draft

variable {d : Draft} {ws : List (String × Document.Rule)} {r : Document.Rule}

/-- A rule that is taken over silently becomes a node, whatever inbounds it lists. -/
theorem Sound.addRule_listed (h : d.Sound) (hlisted : d.graph.Listed ws)
    (htags : DistinctInbounds d.nodes) (hsilent : (d.addRule true ws.length r).warnings = []) :
    ∃ n, (d.addRule true ws.length r).graph.Listed (ws ++ [(n.id, r)]) ∧
      (d.addRule true ws.length r).nodes = d.nodes ++ [n] ∧ n.kind = .routing := by
  obtain ⟨n, m, into, out, hgraph, hnew, hrole, -, hknown, hentered, hinto⟩ :=
    h.addRule_grown hsilent
  refine ⟨n, ?_, congrArg Graph.nodes hgraph, hnew.routing⟩
  rw [hgraph]
  refine hlisted.grow h.layered.isLink hnew hrole (fun i hi c hc => ?_) (exists_of_known hknown)
  rw [Document.Rule.serves_iff, ← mem_sources h.ids htags hknown hi hc]
  constructor
  · rintro ⟨e, he, hsource⟩
    exact hsource ▸ (hinto e he).1
  · exact hentered i.id

end Import.Draft

namespace Import

/-- A document that is taken over silently is made into a graph of its rules, whatever
inbounds they list. -/
theorem listed_draft {o : Options} (ho : o.ruleNodes = true) {doc : Json}
    (hsilent : (draft o doc).warnings = []) (htags : DistinctInbounds (draft o doc).nodes) :
    ∃ ws, (draft o doc).graph.Listed ws ∧ ws.map Prod.snd = rulesOf doc := by
  rw [DistinctInbounds, inbounds_draft ho] at htags
  rw [draft_eq, ho] at hsilent ⊢
  have hstart : (unruled doc).graph.Listed [] := Graph.listed_nil (unruled_unruled doc).nodes
  refine (Draft.addAll_rules
    (P := fun ws d => d.graph.Listed ws ∧ d.Sound ∧ DistinctInbounds d.nodes) _ ?step
    ⟨hstart, sound_unruled doc, htags⟩ hsilent).imp fun ws' hfinal => ⟨hfinal.1.1, hfinal.2⟩
  rintro r - ws d ⟨hlisted, hsound, htags⟩ hquiet
  obtain ⟨n, hnext, hnodes, hkind⟩ := hsound.addRule_listed hlisted htags hquiet
  refine ⟨n.id, hnext, hsound.addRule true ws.length r, ?_⟩
  rw [hnodes]
  exact htags.append (by simp [hkind])

/-- A rule of a document that is taken over silently becomes a routing node that is
entered from the inbounds that the rule serves. Its predicates match the requests that
everything else in the rule accepts, but of several inbounds that are listed only those
that enter at the first one. -/
theorem config_lists [Rule.Patterns] {text : String} {o : Options} {out : Outcome} {doc : Json}
    (h : config text o = .ok out) (hdoc : objectOf text = .ok doc) (ho : o.ruleNodes = true)
    (hsilent : out.summary.warnings = []) (htags : DistinctInbounds out.nodes)
    {before after : List Document.Rule} {rule : Document.Rule}
    (hsplit : rulesOf doc = before ++ rule :: after) :
    ∃ n, (out.nodes.filter fun n => n.kind = .routing)[before.length]? = some n ∧
      n.role = .routing ⟨Draft.ruleTag (before.length + 1) rule, predicatesOf rule⟩ ∧
      (∀ i ∈ out.nodes, ∀ c, i.inbound? = some c →
        ((∃ e ∈ out.edges, e.source = i.id ∧ e.target = n.id) ↔ rule.serves c.tag = true)) ∧
      ∀ s, Rule.predicatesMatch (predicatesOf rule) s = true ↔
        (∀ first, (rule.inboundTag.getD []).head? = some first → first = s.inboundTag) ∧
          rule.anywhere.present.accepts s = true := by
  obtain rfl := outcome_eq h hdoc
  have hmade := (sound_draft o doc).made
  have hdrafted : DistinctInbounds (draft o doc).nodes := by
    rw [DistinctInbounds, ← inbounds_outcome hmade o]
    exact htags
  obtain ⟨ws, hlisted, hrules⟩ := listed_draft ho hsilent hdrafted
  rw [← unplaced_outcome hmade o] at hlisted
  replace hlisted := hlisted.of_unplaced
  obtain ⟨before', tail, rfl, rfl, htail⟩ := List.map_eq_append_iff.mp (hrules.trans hsplit)
  obtain ⟨w, after', rfl, rfl, rfl⟩ := List.map_eq_cons_iff.mp htail
  obtain ⟨n, hplace, hid, hrole⟩ := Import.MadeOf.exists_node hlisted.nodes rfl
  rw [List.length_map]
  refine ⟨n, hplace, hrole, ?entered, ?matched⟩
  case entered =>
    rw [hid]
    exact hlisted.enters w (by simp)
  case matched =>
    intro s
    rw [Document.Rule.predicatesMatch_predicatesOf, Bool.and_eq_true]
    refine and_congr_left' ?_
    show Rule.absentOr ((w.2.inboundTag.getD []).head?.bind Text.nonBlank?) _ = true ↔ _
    cases hfirst : (w.2.inboundTag.getD []).head? with
    | none => simp [Rule.absentOr]
    | some first =>
      -- the tag that is asked for is the tag of an inbound, and so it is trimmed
      obtain ⟨k, hk, hkind, htag⟩ :=
        hlisted.asked w (by simp) first (List.mem_of_mem_head? hfirst)
      have htight := tight_inbounds ho hsilent k hk hkind first htag
      have hself : ((some first).bind Text.nonBlank?) = some first := htight.nonBlank?
      rw [hself]
      simp [Rule.absentOr]

/-! ### An instance -/

/-- Two inbounds, and a rule that lists both. -/
def crowded : Json :=
  .object [
    ("inbounds", .list [inboundEntry "a" 1080, inboundEntry "b" 1081]),
    ("outbounds", .list [outboundEntry "direct" "freedom"]),
    ("routing", .object [("rules", .list [linkEntry ["a", "b"] "direct"])])]

/-- What is known about it without taking it over. -/
theorem crowded_read :
    objectOf (crowded.toLines ++ "\n") = .ok crowded.settle ∧
      config (crowded.toLines ++ "\n") .usual =
        .ok ((draft .usual crowded.settle).outcome .usual) ∧
      rulesOf crowded.settle = [linkRule ["a", "b"] "direct"] ∧
      (draft .usual crowded.settle).warnings = [] ∧
      DistinctInbounds ((draft .usual crowded.settle).outcome .usual).nodes := by
  have hplain : crowded.Plain := Json.plain_naturals [1080, 1081] rfl (by decide)
  have hdoc : objectOf (crowded.toLines ++ "\n") = .ok crowded.settle :=
    objectOf_file hplain (by decide)
  refine ⟨hdoc, config_eq hdoc rfl, by decide +kernel, by decide +kernel, ?_⟩
  rw [DistinctInbounds, inbounds_outcome (sound_draft _ _).made]
  decide +kernel

attribute [local instance] Rule.Patterns.empty

/-- What enters at the first inbound is matched. -/
theorem config_lists_crowded :
    ∃ out n, config (crowded.toLines ++ "\n") .usual = .ok out ∧
      (out.nodes.filter fun n => n.kind = .routing)[0]? = some n ∧
      n.role = .routing ⟨"rule-1", predicatesOf (linkRule ["a", "b"] "direct")⟩ ∧
      Rule.predicatesMatch (predicatesOf (linkRule ["a", "b"] "direct"))
        ⟨"a.example", "tcp", 80, "a"⟩ = true := by
  obtain ⟨hdoc, hout, hrules, hsilent, hdistinct⟩ := crowded_read
  obtain ⟨n, hplace, hrole, -, hmatch⟩ :=
    config_lists hout hdoc rfl hsilent hdistinct
      (show rulesOf crowded.settle = [] ++ linkRule ["a", "b"] "direct" :: [] from hrules)
  refine ⟨_, n, hout, hplace, hrole, (hmatch _).mpr ⟨?_, by decide +kernel⟩⟩
  intro first hfirst
  exact (Option.some.inj hfirst).symm

/-- What enters at the second one is not matched, though the rule lists it and asks for
nothing else. -/
theorem crowded_second :
    ∃ out n, config (crowded.toLines ++ "\n") .usual = .ok out ∧ out.summary.warnings = [] ∧
      DistinctInbounds out.nodes ∧ objectOf (crowded.toLines ++ "\n") = .ok crowded.settle ∧
      rulesOf crowded.settle = [linkRule ["a", "b"] "direct"] ∧
      (out.nodes.filter fun n => n.kind = .routing) = [n] ∧
      n.role = .routing ⟨"rule-1", predicatesOf (linkRule ["a", "b"] "direct")⟩ ∧
      "b" ∈ (linkRule ["a", "b"] "direct").inboundTag.getD [] ∧
      (linkRule ["a", "b"] "direct").anywhere.present.accepts ⟨"a.example", "tcp", 80, "b"⟩ =
        true ∧
      Rule.predicatesMatch (predicatesOf (linkRule ["a", "b"] "direct"))
        ⟨"a.example", "tcp", 80, "b"⟩ = false := by
  obtain ⟨hdoc, hout, hrules, hsilent, hdistinct⟩ := crowded_read
  have hnode : ∃ n, (((draft .usual crowded.settle).outcome .usual).nodes.filter
      fun n => n.kind = .routing) = [n] ∧
        n.role = .routing ⟨"rule-1", predicatesOf (linkRule ["a", "b"] "direct")⟩ := by
    have hroles : (((draft .usual crowded.settle).outcome .usual).nodes.filter
        fun n => n.kind = .routing).map Placed.role =
          [.routing ⟨"rule-1", predicatesOf (linkRule ["a", "b"] "direct")⟩] := by
      decide +kernel
    obtain ⟨n, rest, hnodes, hrole, hrest⟩ := List.map_eq_cons_iff.mp hroles
    rw [List.map_eq_nil_iff.mp hrest] at hnodes
    exact ⟨n, hnodes, hrole⟩
  obtain ⟨n, hnodes, hrole⟩ := hnode
  exact ⟨_, n, hout, hsilent, hdistinct, hdoc, hrules, hnodes, hrole, by decide, by decide +kernel,
    by decide +kernel⟩

end Import

end ProxyPlan
