/-
ProxyPlan.Proofs.Rules — rules that are taken over, whatever becomes of them.

A rule of a document either becomes a routing node or leaves links only. What the two ways
have in common is shown here. When nothing is said about a rule, it has a target, the
inbounds that it lists are there, and it is entered from those it serves (`mem_sources`).
A rule that becomes a node adds just this node, the edges into it and the one that leaves
it (`Sound.addRule_grown`). And what every such rule keeps true of the rules so far, a
document that is taken over silently keeps true of all its rules (`addAll_rules`), starting
from a draft without routing nodes in which only balancers have links (`Unruled`).

What of a rule is asked for in a node are the first inbound that it lists and everything
else that is present (`predicatesMatch_predicatesOf`).
-/
import ProxyPlan.Proofs.Layers

namespace ProxyPlan

/-! ## Rules of any document -/

namespace Document.Rule

/-- The rule without empty lists and blank texts, which ask for nothing. -/
def present (r : Document.Rule) : Document.Rule :=
  { r with
    inboundTag := r.inboundTag.filter fun tags => !tags.isEmpty
    domain := r.domain.filter fun rules => !rules.isEmpty
    ip := r.ip.filter fun rules => !rules.isEmpty
    port := r.port.bind Text.nonBlank?
    network := r.network.bind Text.nonBlank?
    protocol := r.protocol.filter fun names => !names.isEmpty }

/-- The rule without the inbounds that it lists. -/
def anywhere (r : Document.Rule) : Document.Rule := { r with inboundTag := none }

/-- The rule is for requests that enter at the inbound with this tag: it lists this
inbound, or none. -/
def serves (r : Document.Rule) (tag : String) : Bool :=
  (r.inboundTag.getD []).isEmpty || (r.inboundTag.getD []).contains tag

theorem serves_iff {r : Document.Rule} {tag : String} :
    r.serves tag = true ↔ r.inboundTag.getD [] = [] ∨ tag ∈ r.inboundTag.getD [] := by
  simp [serves]

theorem all_filter_nonEmpty (xs : Option (List String)) (test : List String → Bool) :
    (xs.filter fun ys => !ys.isEmpty).all test = ((xs.getD []).isEmpty || test (xs.getD [])) := by
  match xs with
  | none => rfl
  | some [] => rfl
  | some (x :: rest) => rfl

theorem any_filter_nonEmpty (xs : Option (List String)) (test : String → Bool) :
    (xs.filter fun ys => !ys.isEmpty).any (fun ys => ys.any test) = (xs.getD []).any test := by
  match xs with
  | none => rfl
  | some [] => rfl
  | some (x :: rest) => rfl

/-- The predicates that are made of a rule ask for the first inbound that it lists, and for
everything else that the rule asks for. -/
theorem predicatesMatch_predicatesOf [Rule.Patterns] (r : Document.Rule) (s : Rule.Subject) :
    Rule.predicatesMatch (Import.predicatesOf r) s =
      (Rule.absentOr (Import.predicatesOf r).inboundTag? (· == s.inboundTag) &&
        r.anywhere.present.accepts s) := by
  rw [Rule.predicatesMatch_eq]
  simp only [accepts, present, anywhere, Option.filter_none, Option.all_none, Bool.true_and,
    all_filter_nonEmpty, any_filter_nonEmpty, Rule.categoriesHold, Rule.domainHolds,
    Rule.absentOr, Bool.and_assoc]
  rfl

theorem present_accepts_eq [Rule.Patterns] (r : Document.Rule) (s : Rule.Subject) :
    r.present.accepts s =
      ((r.inboundTag.filter fun tags => !tags.isEmpty).all (fun tags =>
        tags.contains s.inboundTag) && r.anywhere.present.accepts s) := by
  simp only [accepts, present, anywhere, Option.filter_none, Option.all_none, Bool.true_and,
    Bool.and_assoc]

end Document.Rule

namespace Import

/-- The rules of a document, those that cannot be read left out. -/
def rulesOf (doc : Json) : List Document.Rule :=
  (itemsOf "rules" ((doc.get? "routing").getD .null)).filterMap fun entry =>
    (Document.Rule.codec.readValue entry).toOption

/-! ## Nodes of rules

Rules are given with the identities of their nodes.
-/

variable {nodes : List Node} {ws : List (String × Document.Rule)}

/-- The routing nodes are made of the rules and stand in their order. -/
def MadeOf (nodes : List Node) (ws : List (String × Document.Rule)) : Prop :=
  ((nodes.filter fun n => n.kind = .routing).map fun n => (n.id, n.role)) =
    ws.mapIdx fun k w => (w.1, .routing ⟨Draft.ruleTag (k + 1) w.2, predicatesOf w.2⟩)

/-- The inbounds that the rules list are there. -/
def AsksFor (nodes : List Node) (ws : List (String × Document.Rule)) : Prop :=
  ∀ w ∈ ws, ∀ tag ∈ w.2.inboundTag.getD [], ∃ n ∈ nodes, n.kind = .inbound ∧ n.tag? = some tag

theorem madeOf_nil (h : ∀ n ∈ nodes, n.kind ≠ .routing) : MadeOf nodes [] := by
  have hnone : (nodes.filter fun n => n.kind = .routing) = [] := by
    rw [List.filter_eq_nil_iff]
    intro n hn
    simpa using h n hn
  unfold MadeOf
  rw [hnone]
  rfl

theorem MadeOf.append (h : MadeOf nodes ws) {n : Node} {r : Document.Rule}
    (hkind : n.kind = .routing)
    (hrole : n.role = .routing ⟨Draft.ruleTag (ws.length + 1) r, predicatesOf r⟩) :
    MadeOf (nodes ++ [n]) (ws ++ [(n.id, r)]) := by
  unfold MadeOf at h ⊢
  rw [List.filter_append, List.map_append, h, List.mapIdx_append]
  simp [hkind, hrole]

/-- The node of a rule. -/
theorem MadeOf.exists_node (h : MadeOf nodes ws) {before after : List (String × Document.Rule)}
    {w : String × Document.Rule} (hws : ws = before ++ w :: after) :
    ∃ n, (nodes.filter fun n => n.kind = .routing)[before.length]? = some n ∧ n.id = w.1 ∧
      n.role = .routing ⟨Draft.ruleTag (before.length + 1) w.2, predicatesOf w.2⟩ := by
  have hplace : ((nodes.filter fun n => n.kind = .routing).map
      fun n => (n.id, n.role))[before.length]? = some (w.1,
        .routing ⟨Draft.ruleTag (before.length + 1) w.2, predicatesOf w.2⟩) := by
    rw [h, hws, List.getElem?_mapIdx, List.getElem?_append_right (Nat.le_refl _), Nat.sub_self]
    rfl
  rw [List.getElem?_map] at hplace
  obtain ⟨n, hn, hself⟩ := Option.map_eq_some_iff.mp hplace
  obtain ⟨hid, hrole⟩ := Prod.mk.inj hself
  exact ⟨n, hn, hid, hrole⟩

theorem MadeOf.of_mem (h : MadeOf nodes ws) {w : String × Document.Rule} (hw : w ∈ ws) :
    ∃ n ∈ nodes, n.id = w.1 ∧ ∃ tag, n.role = .routing ⟨tag, predicatesOf w.2⟩ := by
  obtain ⟨before, after, hws⟩ := List.append_of_mem hw
  obtain ⟨n, hn, hid, hrole⟩ := h.exists_node hws
  exact ⟨n, (List.mem_filter.mp (List.mem_of_getElem? hn)).1, hid, _, hrole⟩

theorem AsksFor.append (h : AsksFor nodes ws) (n : Node) {w : String × Document.Rule}
    (hw : ∀ tag ∈ w.2.inboundTag.getD [], ∃ n ∈ nodes, n.kind = .inbound ∧ n.tag? = some tag) :
    AsksFor (nodes ++ [n]) (ws ++ [w]) := by
  refine List.forall_mem_append.mpr ⟨fun w' hw' tag htag => ?_, List.forall_mem_singleton.mpr ?_⟩
  · obtain ⟨i, hi, hi'⟩ := h w' hw' tag htag
    exact ⟨i, List.mem_append_left _ hi, hi'⟩
  · intro tag htag
    obtain ⟨i, hi, hi'⟩ := hw tag htag
    exact ⟨i, List.mem_append_left _ hi, hi'⟩

/-- Moving nodes does not change what they have been made of. -/
theorem MadeOf.of_unplaced (h : MadeOf (nodes.map Node.unplaced) ws) : MadeOf nodes ws := by
  unfold MadeOf at h
  rw [List.filter_map, List.map_map] at h
  exact h

theorem AsksFor.of_unplaced (h : AsksFor (nodes.map Node.unplaced) ws) : AsksFor nodes ws := by
  intro w hw tag htag
  obtain ⟨_, hmoved, hkind, hn⟩ := h w hw tag htag
  obtain ⟨n, hn', rfl⟩ := List.mem_map.mp hmoved
  exact ⟨n, hn', hkind, hn⟩

end Import

/-! ## Taking over rules -/

namespace Import.Draft

variable {d : Draft} {ws : List (String × Document.Rule)} {r : Document.Rule} {index : Nat}

/-- A rule is entered from the inbounds that it lists, or from all. -/
theorem mem_sources (hids : (d.nodes.map Placed.id).Nodup) (htags : DistinctInbounds d.nodes)
    {listed : List String} (hknown : ∀ tag ∈ listed, (d.inbound? tag).isSome = true) {i : Node}
    (hi : i ∈ d.nodes) {c : Inbound} (hc : i.inbound? = some c) :
    i.id ∈ d.sources listed ↔ listed = [] ∨ c.tag ∈ listed := by
  -- the one inbound with a tag is the latest
  have hself : ∀ tag ∈ listed, d.inbound? tag = some i.id ↔ tag = c.tag := by
    intro tag htag
    obtain ⟨id, hid⟩ := Option.isSome_iff_exists.mp (hknown tag htag)
    obtain ⟨n, hn, rfl, hkind, hntag⟩ := of_latest? hid
    obtain ⟨c', hc', rfl⟩ := Node.exists_inbound? (of_decide_eq_true hkind) hntag
    rw [show d.inbound? c'.tag = some n.id from hid, Option.some.injEq]
    constructor
    · intro hsame
      obtain rfl : n = i := List.inj_on_of_nodup_map hids hn hi hsame
      rw [Option.some.inj (hc'.symm.trans hc)]
    · intro hsame
      rw [htags.eq hn hi hc' hc hsame]
  cases listed with
  | nil =>
    have hthere : i.id ∈ d.sources [] := List.mem_map.mpr
      ⟨i, List.mem_filter.mpr ⟨hi, decide_eq_true (Node.kind_of_inbound? hc)⟩, rfl⟩
    simp [hthere]
  | cons tag rest =>
    show i.id ∈ (tag :: rest).filterMap d.inbound? ↔ _
    rw [List.mem_filterMap]
    constructor
    · rintro ⟨asked, hasked, hid⟩
      exact .inr ((hself asked hasked).mp hid ▸ hasked)
    · intro hlists
      have hthere := hlists.resolve_left (List.cons_ne_nil _ _)
      exact ⟨c.tag, hthere, (hself _ hthere).mpr rfl⟩

theorem lead_warnings (overNode : Bool) (index : Nat) (r : Document.Rule) (sources : List String)
    (target : String) : (d.lead overNode index r sources target).warnings = d.warnings := by
  cases overNode with
  | true =>
    obtain ⟨into, out, hled, -⟩ := lead_spec d index r sources target
    rw [hled]
  | false =>
    obtain ⟨es, hled⟩ := lead_links d index r sources target
    rw [hled]

/-- What is said once stays said. -/
theorem warnings_addRule {overNode : Bool} (h : (d.addRule overNode index r).warnings = []) :
    d.warnings = [] ∧ ∃ m, r.leadsToLast d.nodes m ∧ d.target (index + 1) r = .ok m.id ∧
      d.unknownInbounds (index + 1) (r.inboundTag.getD []) = [] := by
  rw [addRule] at h
  split at h
  case h_1 w _ => simp [warn] at h
  case h_2 target htarget =>
    obtain ⟨m, rfl, hlast⟩ := last_of_target htarget
    simp only [lead_warnings] at h
    obtain ⟨hquiet, hsaid⟩ := List.append_eq_nil_iff.mp h
    exact ⟨hquiet, m, hlast, htarget, hsaid⟩

/-- A rule of which nothing is said lists inbounds that are there. -/
theorem known_of_silent {number : Nat} {listed : List String}
    (h : d.unknownInbounds number listed = []) :
    ∀ tag ∈ listed, (d.inbound? tag).isSome = true := by
  intro tag htag
  have hnone := List.filter_eq_nil_iff.mp (List.map_eq_nil_iff.mp h) tag htag
  simpa [Option.isSome_iff_ne_none] using hnone

theorem exists_of_known {listed : List String}
    (hknown : ∀ tag ∈ listed, (d.inbound? tag).isSome = true) :
    ∀ tag ∈ listed, ∃ n ∈ d.nodes, n.kind = .inbound ∧ n.tag? = some tag := by
  intro tag htag
  obtain ⟨id, hid⟩ := Option.isSome_iff_exists.mp (hknown tag htag)
  obtain ⟨n, hn, -, hkind, hntag⟩ := of_latest? hid
  exact ⟨n, hn, of_decide_eq_true hkind, hntag⟩

/-- A rule that is taken over silently adds a node, which is entered from the inbounds of
the rule and leads to its target. -/
theorem Sound.addRule_grown (h : d.Sound) (hsilent : (d.addRule true index r).warnings = []) :
    ∃ n m into out, (d.addRule true index r).graph = d.graph.grow [n] (into ++ [out]) ∧
      d.graph.RuleEdges n m into out ∧
      n.role = .routing ⟨ruleTag (index + 1) r, predicatesOf r⟩ ∧ r.leadsToLast d.nodes m ∧
      (∀ tag ∈ r.inboundTag.getD [], (d.inbound? tag).isSome = true) ∧
      (∀ source ∈ d.sources (r.inboundTag.getD []), ∃ e ∈ into, e.source = source) ∧
      ∀ e ∈ into, e.source ∈ d.sources (r.inboundTag.getD []) ∧
        e.priority = (Text.word? index).getD defaultPriority := by
  obtain ⟨-, m, hlast, htarget, hsaid⟩ := warnings_addRule hsilent
  have hsources : ∀ id ∈ d.sources (r.inboundTag.getD []), d.graph.kind? id = some .inbound := by
    intro id hid
    obtain ⟨n, hn, rfl, hkind⟩ := of_mem_sources hid
    rw [kind?_of_mem h.ids hn, hkind]
  let counted : Draft := { d with rules := d.rules + 1 }
  obtain ⟨into, out, hled, hnew, hentered, hinto⟩ := lead_ruleEdges (d := counted) h.made h.ids
    h.layered.isLink hsources hlast.mem index r
  have hadded : d.addRule true index r =
      counted.lead true index r (d.sources (r.inboundTag.getD [])) m.id := by
    simp only [Draft.addRule, htarget, hsaid, List.append_nil]
    rfl
  let n := d.next (.routing ⟨ruleTag (index + 1) r, predicatesOf r⟩)
  have hgraph : (d.addRule true index r).graph = d.graph.grow [n] (into ++ [out]) := by
    rw [hadded, hled, graph, Graph.grow, ← List.append_assoc]
    rfl
  exact ⟨n, m, into, out, hgraph, hnew, rfl, hlast, known_of_silent hsaid, hentered, hinto⟩

/-- The rules of a list are taken over silently or not at all. -/
theorem silent_of_addAll {overNode : Bool} (index : Nat) (entries : List Json)
    (h : (addAll Document.Rule.codec .rules (Draft.addRule overNode) index entries d).warnings =
      []) : d.warnings = [] :=
  addAll_keeps (c := Document.Rule.codec) (P := fun d' => d'.warnings = [] → d.warnings = [])
    .rules (fun d' w _ hw => by simp [warn] at hw)
    (fun index r d' h hr => h (warnings_addRule hr).1) index entries id h

/-- What every rule that is taken over silently keeps true of the rules so far, a list that
is taken over silently keeps true of all its rules. -/
theorem addAll_rules {overNode : Bool} {P : List (String × Document.Rule) → Draft → Prop}
    (entries : List Json)
    (hstep : ∀ r ∈ entries.filterMap fun entry => (Document.Rule.codec.readValue entry).toOption,
      ∀ ws d, P ws d → (d.addRule overNode ws.length r).warnings = [] →
        ∃ id, P (ws ++ [(id, r)]) (d.addRule overNode ws.length r))
    (h : P ws d)
    (hsilent : (addAll Document.Rule.codec .rules (Draft.addRule overNode) ws.length entries
      d).warnings = []) :
    ∃ ws', P ws' (addAll Document.Rule.codec .rules (Draft.addRule overNode) ws.length entries d) ∧
      ws'.map Prod.snd = ws.map Prod.snd ++
        entries.filterMap fun entry => (Document.Rule.codec.readValue entry).toOption := by
  induction entries generalizing d ws with
  | nil => exact ⟨ws, h, by simp⟩
  | cons entry rest ih =>
    rw [addAll] at hsilent ⊢
    cases hread : Document.Rule.codec.readValue entry with
    | error fault =>
      rw [hread] at hsilent
      have hquiet := silent_of_addAll _ rest hsilent
      simp [Draft.warn] at hquiet
    | ok r =>
      rw [hread] at hsilent
      simp only [List.filterMap_cons, hread, Except.toOption, List.forall_mem_cons] at hstep
      obtain ⟨id, hnext⟩ := hstep.1 ws d h (silent_of_addAll _ rest hsilent)
      have hlength : (ws ++ [(id, r)]).length = ws.length + 1 := List.length_append
      rw [← hlength] at hsilent ⊢
      obtain ⟨ws', hfinal, hrules⟩ := ih hstep.2 hnext hsilent
      refine ⟨ws', hfinal, ?_⟩
      rw [hrules]
      simp [hread, Except.toOption]

/-! ### Before the rules -/

/-- There are no routing nodes yet, and only balancers have links. -/
structure Unruled (d : Draft) : Prop where
  nodes : ∀ n ∈ d.nodes, n.kind ≠ .routing
  edges : ∀ e ∈ d.edges, ∃ b ∈ d.nodes, b.kind = .balancer ∧ b.id = e.source

theorem Unruled.grow {d' : Draft} (h : d.Unruled) {n : Node} {es : List Edge}
    (hgraph : d'.graph = d.graph.grow [n] es) (hkind : n.kind ≠ .routing)
    (hes : ∀ e ∈ es, n.kind = .balancer ∧ n.id = e.source) : d'.Unruled := by
  have hnodes : d'.nodes = d.nodes ++ [n] := congrArg Graph.nodes hgraph
  have hedges : d'.edges = d.edges ++ es := congrArg Graph.edges hgraph
  constructor
  · rw [hnodes]
    exact List.forall_mem_append.mpr ⟨h.nodes, List.forall_mem_singleton.mpr hkind⟩
  · rw [hnodes, hedges]
    refine List.forall_mem_append.mpr ⟨fun e he => ?_, fun e he => ?_⟩
    · obtain ⟨b, hb, hends⟩ := h.edges e he
      exact ⟨b, List.mem_append_left _ hb, hends⟩
    · exact ⟨n, List.mem_append_right _ (List.mem_singleton.mpr rfl), hes e he⟩

theorem Unruled.warn (h : d.Unruled) (w : Warning) : (d.warn w).Unruled := ⟨h.nodes, h.edges⟩

theorem Unruled.add {d' : Draft} (h : d.Unruled) {role : Role}
    (hgraph : d'.graph = (d.add role).graph) (hkind : role.kind ≠ .routing) : d'.Unruled :=
  h.grow (hgraph.trans (d.graph_add role)) hkind (by simp)

theorem Unruled.addInbound (h : d.Unruled) (i : Document.Inbound) : (d.addInbound i).Unruled := by
  rw [Draft.addInbound]
  split
  · exact h.add rfl (by simp [Role.kind])
  · exact h.warn _

theorem Unruled.addOutbound (h : d.Unruled) (o : Document.Outbound) :
    (d.addOutbound o).Unruled := by
  rw [Draft.addOutbound]
  split
  case h_1 | h_2 => exact h.add rfl (by simp [Role.kind])
  case h_3 => exact h.warn _

theorem Unruled.addBalancer (h : d.Unruled) (b : Document.Balancer) :
    (d.addBalancer b).Unruled := by
  obtain ⟨es, hgraph, -, hdrawn, -⟩ := addBalancer_spec b d
  exact h.grow hgraph (by simp [next, Node.kind, Role.kind]) fun e he =>
    ⟨rfl, (hdrawn e he).1.symm⟩

/-- Before the rules no inbound has a link. -/
theorem Unruled.source_ne (h : d.Unruled) (hids : (d.nodes.map Placed.id).Nodup) :
    ∀ e ∈ d.edges, ∀ i ∈ d.nodes, i.kind = .inbound → e.source ≠ i.id := by
  intro e he i hi hkind hsource
  obtain ⟨b, hb, hbalancer, hid⟩ := h.edges e he
  obtain rfl : b = i := List.inj_on_of_nodup_map hids hb hi (hid.trans hsource)
  rw [hbalancer] at hkind
  cases hkind

end Import.Draft

namespace Import

theorem unruled_unruled (doc : Json) : (unruled doc).Unruled := by
  have hwarn : ∀ d w, Draft.Unruled d → (d.warn w).Unruled := fun d w h => h.warn w
  rw [unruled]
  refine Draft.addAll_keeps .balancers hwarn (fun _ b d h => h.addBalancer b) 0 _ ?_
  refine Draft.addAll_keeps .outbounds hwarn (fun _ o d h => h.addOutbound o) 0 _ ?_
  refine Draft.addAll_keeps .inbounds hwarn (fun _ i d h => h.addInbound i) 0 _ ?_
  constructor <;> simp [Draft.empty]

/-- Taking over rules adds no inbound. -/
theorem inbounds_draft {o : Options} (ho : o.ruleNodes = true) (doc : Json) :
    (draft o doc).nodes.filterMap Node.inbound? = (unruled doc).nodes.filterMap Node.inbound? := by
  rw [draft_eq, ho]
  refine Draft.addAll_keeps (c := Document.Rule.codec)
    (P := fun d => d.nodes.filterMap Node.inbound? = (unruled doc).nodes.filterMap Node.inbound?)
    .rules (fun d w h => h) (fun index r d h => ?_) 0 _ rfl
  rw [Draft.addRule]
  split
  case h_1 => exact h
  case h_2 target _ =>
    obtain ⟨into, out, hled, -⟩ := Draft.lead_spec
      { d with
        rules := d.rules + 1
        warnings := d.warnings ++ d.unknownInbounds (index + 1) (r.inboundTag.getD []) }
      index r (d.sources (r.inboundTag.getD [])) target
    simp only [hled, List.filterMap_append, h]
    simp [Draft.next, Node.inbound?]

/-- Laying out does not change inbounds. -/
theorem inbounds_outcome {d : Draft} (h : d.Made) (o : Options) :
    (d.outcome o).nodes.filterMap Node.inbound? = d.nodes.filterMap Node.inbound? := by
  have hmoved := congrArg (fun g : Graph => g.nodes.filterMap Node.inbound?) (unplaced_outcome h o)
  rw [Graph.unplaced_nodes, List.filterMap_map] at hmoved
  exact hmoved

/-- The inbounds of a document that is taken over silently have trimmed tags. -/
theorem tight_inbounds {o : Options} (ho : o.ruleNodes = true) {doc : Json}
    (hsilent : (draft o doc).warnings = []) :
    ∀ n ∈ ((draft o doc).outcome o).nodes, n.kind = .inbound → ∀ tag, n.tag? = some tag →
      Text.Tight tag := by
  have horderly := orderly_draft ho doc
  intro n hn hkind tag htag
  have hmoved : n.unplaced ∈ (draft o doc).nodes := by
    rw [show (draft o doc).nodes = _ from
      (congrArg Graph.nodes (unplaced_outcome horderly.made o)).symm]
    exact List.mem_map_of_mem hn
  refine (horderly.restorable hsilent).tight _ hmoved ?_ tag htag
  show n.kind ≠ .routing
  rw [hkind]
  decide

/-- What has sections is taken over. -/
theorem config_eq {text : String} {o : Options} {doc : Json} (hdoc : objectOf text = .ok doc)
    (hinbounds : (doc.get? "inbounds").isSome = true) :
    config text o = .ok ((draft o doc).outcome o) := by
  have hsections : (doc.get? "inbounds").isNone = false := by
    simpa [Option.isNone_eq_false_iff] using hinbounds
  rw [config, hdoc]
  simp only [bind, Except.bind, hsections, Bool.false_and, Bool.false_eq_true, if_false]
  rfl

/-! ### Entries of small documents -/

/-- The entry of an inbound. -/
def inboundEntry (tag : String) (port : Nat) : Json :=
  .object [("tag", .text tag), ("protocol", .text "socks"), ("port", .nat port)]

/-- The entry of an outbound. -/
def outboundEntry (tag protocol : String) : Json :=
  .object [("tag", .text tag), ("protocol", .text protocol)]

/-- The entry of a rule that asks for nothing but the inbound. -/
def linkEntry (inbounds : List String) (outbound : String) : Json :=
  .object [("inboundTag", .list (inbounds.map .text)), ("outboundTag", .text outbound)]

/-- The rule of such an entry. -/
def linkRule (inbounds : List String) (outbound : String) : Document.Rule where
  type := "field"
  ruleTag := none
  inboundTag := some inbounds
  domain := none
  ip := none
  port := none
  network := none
  protocol := none
  outboundTag := some outbound
  balancerTag := none

end Import

end ProxyPlan
