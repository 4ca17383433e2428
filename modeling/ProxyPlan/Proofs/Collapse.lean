/-
ProxyPlan.Proofs.Collapse — rules that are taken over as links only.

Without nodes of their own, rules leave nothing behind but links from the inbounds they
serve to their targets, and their order is kept in the priorities of the links. Two nodes
are linked once, so of several rules with one target only the first leaves a link
(`Draft.leadsFrom_linkAll`). What is drawn from an inbound is therefore a part of what
its rules ask for, and begins as that does (`Graph.Collapsed`): a later rule can neither
come before the first one nor change its priority.

No rule is left to be asked about, so every link that leaves an inbound leads past the
rules, and a request takes the best one. It is the link of the first rule that serves the
inbound, whatever else the rule would ask for (`config_collapses`).

As for rules that become nodes, a place is kept in 32 bits. A place that does not fit counts
as the priority of links that have none; this puts no rule before one of the first thousand.
-/
import ProxyPlan.Proofs.Rules

namespace ProxyPlan

/-! ## Links without repetition -/

/-- Where the edges of a node lead and their priorities, in the order in which they are
drawn. -/
def Graph.leadsFrom (g : Graph) (id : String) : List (String × UInt32) :=
  (g.edges.filter fun e => e.source == id).map fun e => (e.target, e.priority)

namespace Import

/-- One link more, unless there is one to the same node. -/
def join (links : List (String × UInt32)) (link : String × UInt32) : List (String × UInt32) :=
  if links.any fun l => l.1 == link.1 then links else links ++ [link]

theorem join_again (links : List (String × UInt32)) (link : String × UInt32) :
    join (join links link) link = join links link := by
  have hthere : ((join links link).any fun l => l.1 == link.1) = true := by
    unfold join
    split
    case isTrue h => exact h
    case isFalse => simp
  rw [join, if_pos hthere]

/-- What is joined is some of what is to be joined. -/
theorem foldl_join_sublist (links new : List (String × UInt32)) :
    (new.foldl join links).Sublist (links ++ new) := by
  induction new generalizing links with
  | nil => simp
  | cons link rest ih =>
    have hone : (join links link).Sublist (links ++ [link]) := by
      unfold join
      split
      · exact List.sublist_append_left links [link]
      · exact List.Sublist.refl _
    have hall := (ih (join links link)).trans (hone.append_right rest)
    rwa [List.append_assoc] at hall

/-- What comes first stays first. -/
theorem foldl_join_cons (first : String × UInt32) (links new : List (String × UInt32)) :
    ∃ rest, new.foldl join (first :: links) = first :: rest := by
  induction new generalizing links with
  | nil => exact ⟨links, rfl⟩
  | cons link rest ih =>
    rw [List.foldl_cons]
    unfold join
    split
    · exact ih links
    · exact ih (links ++ [link])

/-! ## Links of rules -/

/-- The priority that the place of a rule becomes. -/
def priorityAt (index : Nat) : UInt32 := (Text.word? index).getD defaultPriority

/-- An earlier place is no worse than a later one, if it is one of the first thousand or
all places fit. -/
theorem priorityAt_le {first later count : Nat} (hlater : first < later) (hcount : later < count)
    (hfits : first ≤ defaultPriority.toNat ∨ count ≤ 2 ^ 32) :
    priorityAt first ≤ priorityAt later := by
  have hdefault : defaultPriority.toNat = 999 := by decide
  have hsize : Nat.pow 2 32 = 4294967296 := by decide
  unfold priorityAt Text.word?
  rw [UInt32.le_iff_toNat_le]
  by_cases hword : later < Nat.pow 2 32
  case pos =>
    rw [if_pos hword, if_pos (Nat.lt_trans hlater hword), Option.getD_some, Option.getD_some,
      UInt32.toNat_ofNat_of_lt' (Nat.lt_trans hlater hword), UInt32.toNat_ofNat_of_lt' hword]
    exact Nat.le_of_lt hlater
  case neg =>
    have hfirst : first ≤ 999 := by omega
    have hfirstWord : first < Nat.pow 2 32 := by omega
    rw [if_neg hword, if_pos hfirstWord, Option.getD_some, Option.getD_none,
      UInt32.toNat_ofNat_of_lt' hfirstWord, hdefault]
    exact hfirst

/-- What rules, given with the identities of their targets, ask for at the inbound with
a tag. -/
def asksAt (tag : String) (ws : List (String × Document.Rule)) : List (String × UInt32) :=
  (ws.zipIdx.filter fun x => x.1.2.serves tag).map fun x => (x.1.1, priorityAt x.2)

theorem asksAt_append (tag : String) (ws : List (String × Document.Rule))
    (w : String × Document.Rule) :
    asksAt tag (ws ++ [w]) =
      asksAt tag ws ++ if w.2.serves tag then [(w.1, priorityAt ws.length)] else [] := by
  unfold asksAt
  rw [List.zipIdx_append, List.filter_append, List.map_append]
  congr 1
  cases hserves : w.2.serves tag with
  | true => simp [hserves]
  | false => simp [hserves]

theorem asksAt_eq_nil {tag : String} {ws : List (String × Document.Rule)}
    (h : ∀ w ∈ ws, w.2.serves tag = false) : asksAt tag ws = [] := by
  unfold asksAt
  rw [List.map_eq_nil_iff, List.filter_eq_nil_iff]
  intro x hx
  simp [h x.1 (List.fst_mem_of_mem_zipIdx hx)]

/-- The first rule for an inbound asks first, and better than all others. -/
theorem asksAt_of_first {tag : String} {before after : List (String × Document.Rule)}
    {w : String × Document.Rule} (hbefore : ∀ w' ∈ before, w'.2.serves tag = false)
    (hserves : w.2.serves tag = true)
    (hfits : before.length ≤ defaultPriority.toNat ∨ (before ++ w :: after).length ≤ 2 ^ 32) :
    ∃ rest, asksAt tag (before ++ w :: after) = (w.1, priorityAt before.length) :: rest ∧
      ∀ link ∈ rest, priorityAt before.length ≤ link.2 := by
  refine ⟨((after.zipIdx (before.length + 1)).filter fun x => x.1.2.serves tag).map
    fun x => (x.1.1, priorityAt x.2), ?_, ?_⟩
  · have hnone := asksAt_eq_nil hbefore
    unfold asksAt at hnone ⊢
    rw [List.zipIdx_append, List.filter_append, List.map_append, hnone]
    simp [hserves]
  · intro link hlink
    obtain ⟨x, hx, rfl⟩ := List.mem_map.mp hlink
    obtain ⟨hlower, hupper, -⟩ := List.mem_zipIdx (List.mem_filter.mp hx).1
    have hcount : x.2 < (before ++ w :: after).length := by
      simp only [List.length_append, List.length_cons]
      omega
    exact priorityAt_le (by omega) hcount hfits

end Import

/-! ## Rules as links -/

/-- The edges of inbounds have been made of these rules, which are given with the
identities of their targets. -/
structure Graph.Collapsed (g : Graph) (ws : List (String × Document.Rule)) : Prop where
  plain : ∀ n ∈ g.nodes, n.kind ≠ .routing
  links : ∀ i ∈ g.nodes, ∀ c, i.inbound? = some c →
    g.leadsFrom i.id = (Import.asksAt c.tag ws).foldl Import.join []
  leads : ∀ w ∈ ws, ∃ m, m.id = w.1 ∧ w.2.leadsToLast g.nodes m

namespace Import.Draft

variable {d : Draft} {ws : List (String × Document.Rule)} {r : Document.Rule}

theorem isLinked_eq (source target : String) :
    d.isLinked source target = (d.graph.leadsFrom source).any fun l => l.1 == target := by
  unfold isLinked Graph.leadsFrom
  rw [List.any_map, List.any_filter]
  rfl

theorem leadsFrom_link (source target id : String) (priority : Option UInt32) :
    (d.link source target priority).graph.leadsFrom id =
      if source = id then join (d.graph.leadsFrom id) (target, priority.getD defaultPriority)
      else d.graph.leadsFrom id := by
  unfold link join
  rw [isLinked_eq]
  by_cases hsource : source = id
  case pos =>
    subst hsource
    rw [if_pos rfl]
    split
    · rfl
    · cases priority <;> simp [Graph.leadsFrom, graph, Edge.priority]
  case neg =>
    rw [if_neg hsource]
    split
    · rfl
    · simp [Graph.leadsFrom, graph, hsource]

/-- Linking several nodes to one gives each of them one link more, or none. -/
theorem leadsFrom_linkAll (sources : List String) (target id : String)
    (priority : Option UInt32) :
    (d.linkAll sources target priority).graph.leadsFrom id =
      if id ∈ sources then join (d.graph.leadsFrom id) (target, priority.getD defaultPriority)
      else d.graph.leadsFrom id := by
  induction sources generalizing d with
  | nil => simp [linkAll]
  | cons source rest ih =>
    have hrest := ih (d := d.link source target priority)
    rw [leadsFrom_link] at hrest
    refine Eq.trans hrest ?_
    by_cases hsource : source = id
    · simp [hsource, join_again]
    · simp [hsource, Ne.symm hsource]

/-- A rule that is taken over silently as links leaves the nodes as they are. -/
theorem addRule_collapsed (hids : (d.nodes.map Placed.id).Nodup)
    (hcollapsed : d.graph.Collapsed ws) (htags : DistinctInbounds d.nodes)
    (hsilent : (d.addRule false ws.length r).warnings = []) :
    ∃ id, (d.addRule false ws.length r).graph.Collapsed (ws ++ [(id, r)]) ∧
      (d.addRule false ws.length r).nodes = d.nodes := by
  obtain ⟨-, m, hlast, htarget, hsaid⟩ := warnings_addRule hsilent
  let counted : Draft := { d with rules := d.rules + 1 }
  have hadded : d.addRule false ws.length r =
      counted.linkAll (d.sources (r.inboundTag.getD [])) m.id (Text.word? ws.length) := by
    simp only [Draft.addRule, htarget, hsaid, List.append_nil]
    rfl
  have hnodes : (d.addRule false ws.length r).nodes = d.nodes := by
    rw [hadded, linkAll_nodes]
  refine ⟨m.id, ⟨?plain, ?links, ?leads⟩, hnodes⟩
  case plain =>
    show ∀ n ∈ (d.addRule false ws.length r).nodes, _
    rw [hnodes]
    exact hcollapsed.plain
  case links =>
    show ∀ i ∈ (d.addRule false ws.length r).nodes, _
    rw [hnodes]
    intro i hi c hc
    have hserved : i.id ∈ d.sources (r.inboundTag.getD []) ↔ r.serves c.tag = true := by
      rw [Document.Rule.serves_iff]
      exact mem_sources hids htags (known_of_silent hsaid) hi hc
    have hlinks : counted.graph.leadsFrom i.id = (asksAt c.tag ws).foldl join [] :=
      hcollapsed.links i hi c hc
    rw [hadded, leadsFrom_linkAll, hlinks, asksAt_append, List.foldl_append]
    by_cases hserves : r.serves c.tag = true
    · rw [if_pos (hserved.mpr hserves), if_pos hserves]
      rfl
    · rw [if_neg (mt hserved.mp hserves), if_neg hserves]
      rfl
  case leads =>
    show ∀ w ∈ ws ++ [(m.id, r)], ∃ t, t.id = w.1 ∧
      w.2.leadsToLast (d.addRule false ws.length r).nodes t
    rw [hnodes]
    exact List.forall_mem_append.mpr
      ⟨hcollapsed.leads, List.forall_mem_singleton.mpr ⟨m, rfl, hlast⟩⟩

/-- The rules of a list become links in their order. -/
theorem addAll_collapsed (hids : (d.nodes.map Placed.id).Nodup)
    (hcollapsed : d.graph.Collapsed ws) (htags : DistinctInbounds d.nodes) (entries : List Json)
    (hsilent : (addAll Document.Rule.codec .rules (Draft.addRule false) ws.length entries
      d).warnings = []) :
    ∃ ws', (addAll Document.Rule.codec .rules (Draft.addRule false) ws.length entries
        d).graph.Collapsed ws' ∧
      ws'.map Prod.snd = ws.map Prod.snd ++
        entries.filterMap fun entry => (Document.Rule.codec.readValue entry).toOption := by
  refine (addAll_rules (P := fun ws d => d.graph.Collapsed ws ∧ (d.nodes.map Placed.id).Nodup ∧
    DistinctInbounds d.nodes) entries ?step ⟨hcollapsed, hids, htags⟩ hsilent).imp
      fun ws' hfinal => ⟨hfinal.1.1, hfinal.2⟩
  rintro r - ws d ⟨hcollapsed, hids, htags⟩ hquiet
  obtain ⟨id, hnext, hnodes⟩ := addRule_collapsed hids hcollapsed htags hquiet
  rw [← hnodes] at hids htags
  exact ⟨id, hnext, hids, htags⟩

theorem Unruled.collapsed (h : d.Unruled) (hids : (d.nodes.map Placed.id).Nodup) :
    d.graph.Collapsed [] where
  plain := h.nodes
  links i hi c hc := by
    have hnone : (d.edges.filter fun e => e.source == i.id) = [] := by
      rw [List.filter_eq_nil_iff]
      intro e he hsource
      exact h.source_ne hids e he i hi (Node.kind_of_inbound? hc) (beq_iff_eq.mp hsource)
    unfold Graph.leadsFrom
    rw [show d.graph.edges.filter _ = _ from hnone]
    rfl
  leads := by simp

end Import.Draft

/-! ## Where a request goes -/

namespace Graph.Collapsed

open Trace

variable {g : Graph} {ws : List (String × Document.Rule)} {i : Node} {c : Inbound} {r : Request}

/-- Moving nodes does not change what the graph has been made of. -/
theorem of_unplaced (h : g.unplaced.Collapsed ws) : g.Collapsed ws where
  plain n hn := h.plain n.unplaced (List.mem_map_of_mem hn)
  links i hi c hc := h.links i.unplaced (List.mem_map_of_mem hi) c hc
  leads w hw := by
    obtain ⟨_, hid, before, after, hnodes, hleads, hlast⟩ := h.leads w hw
    rw [unplaced_nodes] at hnodes
    obtain ⟨before', tail, hsplit, -, htail⟩ := List.map_eq_append_iff.mp hnodes
    obtain ⟨m, after', rfl, rfl, rfl⟩ := List.map_eq_cons_iff.mp htail
    exact ⟨m, hid, before', after', hsplit, hleads, fun n hn => hlast n.unplaced (List.mem_map_of_mem hn)⟩

variable (h : g.Collapsed ws) (hlayered : g.Layered) (hi : i ∈ g.nodes)
  (hc : i.inbound? = some c)

include h hlayered hi hc

/-- The best link of an inbound is the one of the first rule for it. -/
theorem exits_of_first {before after : List (String × Document.Rule)} {w : String × Document.Rule}
    (hws : ws = before ++ w :: after) (hbefore : ∀ w' ∈ before, w'.2.serves c.tag = false)
    (hserves : w.2.serves c.tag = true)
    (hfits : before.length ≤ defaultPriority.toNat ∨ ws.length ≤ 2 ^ 32) :
    ∃ e m rest, exits g i.id = (e, m) :: rest ∧ w.2.leadsToLast g.nodes m := by
  subst hws
  obtain ⟨rest, hasks, hworse⟩ := Import.asksAt_of_first hbefore hserves hfits
  have hlinks := h.links i hi c hc
  have hpart := Import.foldl_join_sublist [] (Import.asksAt c.tag (before ++ w :: after))
  rw [← hlinks, List.nil_append, hasks] at hpart
  rw [hasks] at hlinks
  obtain ⟨others, hothers⟩ :=
    Import.foldl_join_cons (w.1, Import.priorityAt before.length) [] rest
  have hfrom : g.leadsFrom i.id = (w.1, Import.priorityAt before.length) :: others :=
    hlinks.trans hothers
  -- the first edge that has been drawn is as good as any other
  rw [hfrom] at hpart
  have hbest : ∀ link ∈ others, Import.priorityAt before.length ≤ link.2 := by
    intro link hlink
    exact hworse link ((List.cons_sublist_cons.mp hpart).subset hlink)
  unfold leadsFrom at hfrom
  obtain ⟨e, es, hedges, hfirst, hrest⟩ := List.map_eq_cons_iff.mp hfrom
  obtain ⟨htarget, hpriority⟩ := Prod.mk.inj hfirst
  have hnoWorse : ∀ e' ∈ es, e.priority ≤ e'.priority := by
    intro e' he'
    rw [hpriority]
    exact hbest (e'.target, e'.priority) (hrest ▸ List.mem_map_of_mem he')
  have houtgoing : g.outgoing i.id = e :: byPriority es := by
    rw [outgoing, linksThat_eq hlayered.isLink, hedges, byPriority_cons hnoWorse]
  obtain ⟨m, hid, hlast⟩ := h.leads w (by simp)
  have hm : g.target? e = some m := by
    rw [target?, htarget, ← hid]
    exact node?_of_mem hlayered.ids hlast.mem
  have hexits : exits g i.id =
      (e, m) :: (byPriority es).filterMap fun e => (g.target? e).map fun n => (e, n) := by
    rw [exits, houtgoing, List.filterMap_cons, hm, Option.map_some]
  exact ⟨e, m, _, hexits, hlast⟩

/-- Without a rule for it, no link leaves an inbound. -/
theorem exits_of_none (hnone : ∀ w ∈ ws, w.2.serves c.tag = false) : exits g i.id = [] := by
  have hlinks := h.links i hi c hc
  rw [Import.asksAt_eq_nil hnone] at hlinks
  unfold leadsFrom at hlinks
  rw [exits, outgoing, linksThat_eq hlayered.isLink, List.map_eq_nil_iff.mp hlinks]
  rfl

omit hlayered hi hc in
/-- Every link leads past the rules. -/
theorem leadsPastRules_of_mem {x : Exit} {id : String} (hx : x ∈ exits g id) :
    leadsPastRules x = true := by
  obtain ⟨-, -, -, ht⟩ := mem_exits.mp hx
  exact decide_eq_true (h.plain x.2 (node?_mem ht))

omit hlayered hi hc in
theorem find?_leadsToMatch [Rule.Patterns] (id : String) (s : Rule.Subject) :
    (exits g id).find? (leadsToMatch s) = none := by
  rw [List.find?_eq_none]
  intro x hx
  have hpast : x.2.kind ≠ .routing := of_decide_eq_true (h.leadsPastRules_of_mem hx)
  unfold leadsToMatch
  cases hrouting : x.2.routing? with
  | none => simp
  | some d => exact absurd (Node.kind_of_routing? hrouting) hpast

variable [Rule.Patterns] (htags : DistinctInbounds g.nodes) (hr : r.inboundTag = c.tag)
  (pick : Picker) (calls : List Nat)

include htags hr

/-- A request goes from its inbound to the target of the first rule for it. -/
theorem run_served {before after : List (String × Document.Rule)} {w : String × Document.Rule}
    (hws : ws = before ++ w :: after) (hbefore : ∀ w' ∈ before, w'.2.serves c.tag = false)
    (hserves : w.2.serves c.tag = true)
    (hfits : before.length ≤ defaultPriority.toNat ∨ ws.length ≤ 2 ^ 32) :
    ∃ m rest, (run g pick calls r).steps.map Step.node = i :: m :: rest ∧
      w.2.leadsToLast g.nodes m := by
  obtain ⟨e, m, rest, hexits, hlast⟩ :=
    h.exits_of_first hlayered hi hc hws hbefore hserves hfits
  have hpass : decision g pick r calls i = .pass .straightOn (e, m) calls := by
    have hstraight : leadsPastRules (e, m) = true :=
      h.leadsPastRules_of_mem (hexits ▸ List.mem_cons_self)
    have hmatch := h.find?_leadsToMatch i.id
    rw [hexits] at hmatch
    simp only [decision, Node.inbound?_eq_some.mp hc, atInbound, hexits, hmatch,
      List.find?_cons, hstraight]
    rfl
  have hway : Way g pick r [] calls i (run g pick calls r) :=
    run_way (entrance?_eq_some htags hi hc hr)
  obtain ⟨t, hrun, hon⟩ := hway.onward (by simp) hpass
  obtain ⟨step, steps, hsteps, rfl⟩ := hon.head
  refine ⟨step.node, steps.map Step.node, ?_, hlast⟩
  rw [hrun, Onto, hsteps]
  rfl

/-- A request that no rule is for gets no further than its inbound. -/
theorem run_unserved (hnone : ∀ w ∈ ws, w.2.serves c.tag = false) :
    run g pick calls r = ⟨[⟨i, .closedInbound⟩], [], .deadEnd i.displayName, calls⟩ := by
  have hkeep : decision g pick r calls i = .keep .closedInbound (.deadEnd i.displayName) := by
    simp only [decision, Node.inbound?_eq_some.mp hc, atInbound,
      h.exits_of_none hlayered hi hc hnone]
    rfl
  have hway : Way g pick r [] calls i (run g pick calls r) :=
    run_way (entrance?_eq_some htags hi hc hr)
  exact hway.eq_kept (by simp) hkeep

end Graph.Collapsed

namespace Import

open Trace

/-- Rules that are taken over as links add no node. -/
theorem nodes_draft {o : Options} (ho : o.ruleNodes = false) (doc : Json) :
    (draft o doc).nodes = (unruled doc).nodes := by
  rw [draft_eq, ho]
  refine Draft.addAll_keeps (c := Document.Rule.codec)
    (P := fun d => d.nodes = (unruled doc).nodes) .rules (fun d w h => h) ?_ 0 _ rfl
  intro index rule d h
  unfold Draft.addRule
  split
  · exact h
  · exact (Draft.linkAll_nodes _ _ _).trans h

/-- A document that is taken over silently is made into links of its rules. -/
theorem collapsed_draft {o : Options} (ho : o.ruleNodes = false) {doc : Json}
    (hsilent : (draft o doc).warnings = []) (htags : DistinctInbounds (draft o doc).nodes) :
    ∃ ws, (draft o doc).graph.Collapsed ws ∧ ws.map Prod.snd = rulesOf doc := by
  rw [nodes_draft ho] at htags
  rw [draft_eq, ho] at hsilent ⊢
  have hids := (sound_unruled doc).ids
  exact Draft.addAll_collapsed hids ((unruled_unruled doc).collapsed hids) htags _ hsilent

/-- A document that is taken over silently, with rules as links, sends a request straight
to the target of the first rule that lists its inbound or none, whatever else the rule
asks for; if there is no such rule, the request ends at its inbound. Neither rules with
the same target nor other inbounds make a difference. -/
theorem config_collapses [Rule.Patterns] {text : String} {o : Options} {out : Outcome} {doc : Json}
    (h : config text o = .ok out) (hdoc : objectOf text = .ok doc) (ho : o.ruleNodes = false)
    (hsilent : out.summary.warnings = []) (htags : DistinctInbounds out.nodes) {i : Node}
    {c : Inbound} (hi : i ∈ out.nodes) (hc : i.inbound? = some c) (pick : Picker)
    (calls : List Nat) {r : Request} (hr : r.inboundTag = c.tag) :
    (∀ before rule after, rulesOf doc = before ++ rule :: after →
      (before.length ≤ defaultPriority.toNat ∨ (rulesOf doc).length ≤ 2 ^ 32) →
      (∀ other ∈ before, other.serves c.tag = false) → rule.serves c.tag = true →
      ∃ m rest, (run ⟨out.nodes, out.edges⟩ pick calls r).steps.map Step.node = i :: m :: rest ∧
        rule.leadsToLast out.nodes m) ∧
    ((∀ rule ∈ rulesOf doc, rule.serves c.tag = false) →
      run ⟨out.nodes, out.edges⟩ pick calls r =
        ⟨[⟨i, .closedInbound⟩], [], .deadEnd i.displayName, calls⟩) := by
  have hlayered := layered_outcome h
  obtain rfl := outcome_eq h hdoc
  have hmade := (sound_draft o doc).made
  have hdrafted : DistinctInbounds (draft o doc).nodes := by
    rw [DistinctInbounds, ← inbounds_outcome hmade o]
    exact htags
  obtain ⟨ws, hcollapsed, hrules⟩ := collapsed_draft ho hsilent hdrafted
  rw [← unplaced_outcome hmade o] at hcollapsed
  replace hcollapsed := hcollapsed.of_unplaced
  constructor
  case left =>
    intro before rule after hsplit hfits hbefore hserves
    obtain ⟨before', tail, rfl, rfl, htail⟩ := List.map_eq_append_iff.mp (hrules.trans hsplit)
    obtain ⟨w, after', rfl, rfl, rfl⟩ := List.map_eq_cons_iff.mp htail
    rw [List.length_map, ← hrules, List.length_map] at hfits
    refine hcollapsed.run_served hlayered hi hc htags hr pick calls rfl ?_ hserves hfits
    exact fun w' hw' => hbefore w'.2 (List.mem_map_of_mem hw')
  case right =>
    intro hnone
    refine hcollapsed.run_unserved hlayered hi hc htags hr pick calls ?_
    exact fun w hw => hnone w.2 (hrules ▸ List.mem_map_of_mem hw)

/-! ### An instance -/

/-- Rules become links only. -/
def linksOnly : Options := ⟨false, true, none⟩

/-- Three inbounds, one of them without a rule, and rules that share targets. -/
def sharing : Json :=
  .object [
    ("inbounds", .list [inboundEntry "a" 1080, inboundEntry "b" 1081, inboundEntry "c" 1082]),
    ("outbounds", .list [outboundEntry "direct" "freedom", outboundEntry "block" "blackhole"]),
    ("routing", .object [("rules", .list [linkEntry ["b"] "direct",
      linkEntry ["b", "a", "a"] "block", linkEntry ["a"] "direct", linkEntry ["b"] "block"])])]

attribute [local instance] Rule.Patterns.empty

theorem config_collapses_sharing :
    ∃ out i k, config (sharing.toLines ++ "\n") linksOnly = .ok out ∧
      (∃ m rest, (run ⟨out.nodes, out.edges⟩ firstPicker [] ⟨"a.example", "tcp", 80, "a"⟩).steps.map
        Step.node = i :: m :: rest ∧
          (linkRule ["b", "a", "a"] "block").leadsToLast out.nodes m) ∧
      run ⟨out.nodes, out.edges⟩ firstPicker [] ⟨"a.example", "tcp", 80, "c"⟩ =
        ⟨[⟨k, .closedInbound⟩], [], .deadEnd k.displayName, []⟩ := by
  have hplain : sharing.Plain := Json.plain_naturals [1080, 1081, 1082] rfl (by decide)
  have hdoc : objectOf (sharing.toLines ++ "\n") = .ok sharing.settle :=
    objectOf_file hplain (by decide)
  have hrules : rulesOf sharing.settle = [linkRule ["b"] "direct",
      linkRule ["b", "a", "a"] "block", linkRule ["a"] "direct", linkRule ["b"] "block"] := by
    decide +kernel
  have hsilent : (draft linksOnly sharing.settle).warnings = [] := by decide +kernel
  have htags : (((draft linksOnly sharing.settle).outcome linksOnly).nodes.filterMap
      Node.inbound?).map Inbound.tag = ["a", "b", "c"] := by
    rw [inbounds_outcome (sound_draft _ _).made]
    decide +kernel
  have hdistinct : DistinctInbounds ((draft linksOnly sharing.settle).outcome linksOnly).nodes := by
    rw [DistinctInbounds, htags]
    decide
  have hout : config (sharing.toLines ++ "\n") linksOnly =
      .ok ((draft linksOnly sharing.settle).outcome linksOnly) := config_eq hdoc rfl
  obtain ⟨i, hi, c, hc, htag⟩ := exists_inbound_of_tags htags "a" (by simp)
  obtain ⟨k, hk, d, hd, hdtag⟩ := exists_inbound_of_tags htags "c" (by simp)
  have hserved := (config_collapses hout hdoc rfl hsilent hdistinct hi hc firstPicker []
    (r := ⟨"a.example", "tcp", 80, "a"⟩) htag.symm).1 [linkRule ["b"] "direct"]
    (linkRule ["b", "a", "a"] "block") _ hrules (.inl (by decide))
    (by rw [htag]; decide) (by rw [htag]; decide)
  have hunserved := (config_collapses hout hdoc rfl hsilent hdistinct hk hd firstPicker []
    (r := ⟨"a.example", "tcp", 80, "c"⟩) hdtag.symm).2 (by rw [hrules, hdtag]; decide)
  exact ⟨_, i, k, hout, hserved, hunserved⟩

end Import

end ProxyPlan
