/-
ProxyPlan.Proofs.WellLinked — compiled documents are well linked.

A document names its outbounds and balancers by tags. Compiling copies a tag
twice, once where the node is declared and once into every rule that leads to
it, and both copies come from one list of nodes: the rules of a group look for
their targets among the nodes of that group only (`mem_targetsOf`), and every
node of the group that can be a target is declared (`document_declares`). So no
rule leads nowhere, whatever the graph is like.

That tags are not declared twice needs a valid graph. The check of a graph
compares trimmed tags and passes over blank ones, a document compares them as
they are written; since no tag of a valid graph is blank, the first is the
stronger of the two (`nodup_tags_of_isValid`). A group holds some of the nodes
of the graph, each as often as the graph does.
-/
import ProxyPlan.Proofs.Audit
import ProxyPlan.Proofs.ClientDocuments
import ProxyPlan.Proofs.NormalDocument

namespace ProxyPlan

/-! ## What is found in a document -/

namespace Document

/-- A flaw of some code is found. -/
def hasFlaw (d : Document) (code : String) : Bool := d.check.any fun f => f.code == code

/-- Every rule was made for a target that is declared. -/
def Linked (d : Document) : Prop :=
  ∀ r ∈ d.routing.rules, ∃ p t, r = Compile.rule p t ∧ d.Declares t

variable {d : Document}

theorem hasFlaw_eq_false {code : String} :
    d.hasFlaw code = false ↔ ∀ f ∈ d.check, f.code ≠ code := by
  simp [hasFlaw]

/-- A rule that was made for a declared target has no flaw. -/
theorem flaw?_eq_none {p : Predicates} {t : Compile.Target} (h : d.Declares t) (number : Nat) :
    (Compile.rule p t).flaw? (d.outbounds.map Outbound.tag)
      (d.routing.balancers.map Balancer.tag) number = none := by
  cases t with
  | outbound tag =>
    have htag : tag ∈ d.outbounds.map Outbound.tag := h
    simp only [Rule.flaw?, Compile.rule, Compile.Target.outbound?]
    rw [if_pos (List.contains_iff_mem.mpr htag)]
  | balancer tag =>
    have htag : tag ∈ d.routing.balancers.map Balancer.tag := h
    simp only [Rule.flaw?, Compile.rule, Compile.Target.outbound?, Compile.Target.balancer?]
    rw [if_pos (List.contains_iff_mem.mpr htag)]

theorem ruleFlaws_eq_nil {outbounds balancers : List String} {number : Nat} {rs : List Rule}
    (h : ∀ r ∈ rs, ∀ n, r.flaw? outbounds balancers n = none) :
    ruleFlaws outbounds balancers number rs = [] := by
  induction rs generalizing number with
  | nil => rfl
  | cons r rest ih =>
    rw [ruleFlaws, h r (by simp) number, ih fun r' hr' => h r' (by simp [hr'])]
    rfl

/-- Of rules only D002 and D003 are found. -/
theorem code_of_mem_ruleFlaws {outbounds balancers : List String} {number : Nat} {rs : List Rule}
    {f : Flaw} (h : f ∈ ruleFlaws outbounds balancers number rs) :
    f.code = "D002" ∨ f.code = "D003" := by
  induction rs generalizing number with
  | nil => cases h
  | cons r rest ih =>
    rcases List.mem_append.mp h with h | h
    · have hflaw : r.flaw? outbounds balancers number = some f := by simpa using h
      rw [Rule.flaw?] at hflaw
      split at hflaw
      case h_1 | h_2 =>
        split at hflaw <;> cases hflaw
        exact .inl rfl
      case h_3 =>
        cases hflaw
        exact .inr rfl
    · exact ih h

/-- Of tags only D001 is found. -/
theorem code_of_mem_repeatedTags {f : Flaw} (h : f ∈ repeatedTags d) : f.code = "D001" := by
  obtain ⟨tag, -, rfl⟩ := List.mem_map.mp h
  rfl

/-- Of selectors only D004 is found. -/
theorem code_of_mem_emptySelectors {f : Flaw} (h : f ∈ emptySelectors d) : f.code = "D004" := by
  obtain ⟨b, -, rfl⟩ := List.mem_map.mp h
  rfl

/-- If all rules lead to what is declared, nothing is found about rules. -/
theorem Linked.hasFlaw (h : d.Linked) : d.hasFlaw "D002" = false ∧ d.hasFlaw "D003" = false := by
  have hrules : ruleFlaws (d.outbounds.map Outbound.tag) (d.routing.balancers.map Balancer.tag) 1
      d.routing.rules = [] := by
    refine ruleFlaws_eq_nil fun r hr n => ?_
    obtain ⟨p, t, rfl, ht⟩ := h r hr
    exact flaw?_eq_none ht n
  have hothers : ∀ f ∈ d.check, f.code = "D001" ∨ f.code = "D004" := by
    intro f hf
    rw [check, hrules, List.append_nil] at hf
    rcases List.mem_append.mp hf with hf | hf
    · exact .inl (code_of_mem_repeatedTags hf)
    · exact .inr (code_of_mem_emptySelectors hf)
  constructor <;> refine hasFlaw_eq_false.mpr fun f hf => ?_
  all_goals rcases hothers f hf with hcode | hcode <;> rw [hcode] <;> decide

/-- Nothing is repeated in a list just when its members are distinct, and distinct from
what stands before it. -/
theorem repeats_eq_nil {seen xs : List String} :
    repeats seen xs = [] ↔ xs.Nodup ∧ ∀ x ∈ xs, x ∉ seen := by
  induction xs generalizing seen with
  | nil => simp [repeats]
  | cons x rest ih =>
    rw [repeats]
    split
    case isTrue hx =>
      have hseen : x ∈ seen := List.contains_iff_mem.mp hx
      simp [hseen]
    case isFalse hx =>
      have hseen : x ∉ seen := fun h => hx (List.contains_iff_mem.mpr h)
      rw [ih, List.nodup_cons]
      constructor
      · rintro ⟨hnodup, hfresh⟩
        refine ⟨⟨fun hmem => hfresh x hmem (by simp), hnodup⟩, ?_⟩
        intro y hy
        obtain rfl | hy := List.mem_cons.mp hy
        · exact hseen
        · exact fun h => hfresh y hy (List.mem_cons_of_mem _ h)
      · rintro ⟨⟨hx, hnodup⟩, hfresh⟩
        refine ⟨hnodup, fun y hy => ?_⟩
        rw [List.mem_cons, not_or]
        exact ⟨fun heq => hx (heq ▸ hy), hfresh y (by simp [hy])⟩

/-- No tag is found to be repeated just when no two endpoints share one that is not empty. -/
theorem hasFlaw_repeated : d.hasFlaw "D001" = false ↔
    ((d.inbounds.map Inbound.tag ++ d.outbounds.map Outbound.tag).filter
      fun tag => tag ≠ "").Nodup := by
  have htags : repeatedTags d = [] ↔ ((d.inbounds.map Inbound.tag ++
      d.outbounds.map Outbound.tag).filter fun tag => tag ≠ "").Nodup := by
    rw [repeatedTags, List.map_eq_nil_iff, repeats_eq_nil]
    simp
  rw [← htags, hasFlaw_eq_false]
  constructor
  · intro hnone
    refine List.eq_nil_iff_forall_not_mem.mpr fun f hf => ?_
    exact hnone f (by rw [check, List.append_assoc]; exact List.mem_append_left _ hf)
      (code_of_mem_repeatedTags hf)
  · intro hnil f hf
    rw [check, hnil, List.nil_append] at hf
    rcases List.mem_append.mp hf with hf | hf
    · rcases code_of_mem_ruleFlaws hf with hcode | hcode <;> rw [hcode] <;> decide
    · rw [code_of_mem_emptySelectors hf]
      decide

/-- If no two endpoints share a tag, no tag is found to be repeated. -/
theorem hasFlaw_of_nodup
    (h : (d.inbounds.map Inbound.tag ++ d.outbounds.map Outbound.tag).Nodup) :
    d.hasFlaw "D001" = false := hasFlaw_repeated.mpr (h.filter _)

end Document

/-! ## The documents of a topology -/

namespace Compile

variable {whole : Graph} {servers : List Server} {o : Options} {g : Group}

/-- What a node of a group can be as a target is declared in the document of the
group. -/
theorem document_declares {n : Node} (hn : n ∈ g.nodes) {t : Target} (ht : target? n = some t) :
    (document whole servers o g).Declares t := by
  rw [target?] at ht
  split at ht <;> cases ht
  case h_1 c hrole =>
    refine List.mem_map.mpr ⟨terminal c, List.mem_filterMap.mpr ⟨n, hn, ?_⟩, rfl⟩
    rw [outboundOf?, hrole]
  case h_2 c hrole =>
    refine List.mem_map.mpr ⟨proxy c (peer? whole servers n.id) (proxyStream whole n.id c),
      List.mem_filterMap.mpr ⟨n, hn, ?_⟩, rfl⟩
    rw [outboundOf?, hrole]
  case h_3 c hrole =>
    refine List.mem_map.mpr ⟨balancer g.graph n.id c, List.mem_filterMap.mpr ⟨n, hn, ?_⟩, rfl⟩
    rw [balancerOf?, hrole]

/-- Whatever a group is like, the rules of its document lead to what the document
declares. -/
theorem document_linked : (document whole servers o g).Linked := by
  intro r hr
  obtain ⟨n, -, id, t, ht, hmade⟩ := mem_rules (g := g.graph) hr
  obtain ⟨e, -, m, hm, -, hmt⟩ := mem_targetsOf ht
  have hdeclares : (document whole servers o g).Declares t := document_declares (g := g) hm hmt
  rcases hmade with ⟨c, -, rfl⟩ | ⟨c, -, rfl⟩
  · exact ⟨_, t, rfl, hdeclares⟩
  · exact ⟨_, t, rfl, hdeclares⟩

/-- A group holds some of the nodes, in their order. -/
theorem nodes_of_mem_groupsOf {nodes : List Node} {edges : List Edge} {taken : List FileName}
    {keys : List (Option String)} (h : g ∈ groupsOf nodes edges servers taken keys) :
    g.nodes.Sublist nodes := by
  induction keys generalizing taken with
  | nil => simp [groupsOf] at h
  | cons key keys ih =>
    simp only [groupsOf] at h
    split at h
    · exact ih h
    · rcases List.mem_cons.mp h with rfl | h
      · exact List.filter_sublist
      · exact ih h

theorem nodes_of_mem_groups {t : Topology} (h : g ∈ groups t) : g.nodes.Sublist t.nodes := by
  rw [groups] at h
  split at h
  · obtain rfl := List.mem_singleton.mp h
    exact List.Sublist.refl _
  · exact nodes_of_mem_groupsOf h

/-- The tags that nodes of some kinds have. -/
def tagsOf (kinds : Kind → Bool) (nodes : List Node) : List String :=
  (nodes.filter fun n => kinds n.kind).filterMap Node.tag?

theorem inboundTags_eq (nodes : List Node) :
    (nodes.filterMap (inboundOf? whole)).map Document.Inbound.tag =
      tagsOf (fun k => k = .inbound) nodes := by
  rw [tagsOf, List.map_filterMap, List.filterMap_filter]
  refine List.filterMap_congr fun n _ => ?_
  obtain ⟨id, position, role, server⟩ := n
  cases role <;> rfl

theorem outboundTags_eq (nodes : List Node) :
    (nodes.filterMap (outboundOf? whole servers)).map Document.Outbound.tag =
      tagsOf Kind.isOutbound nodes := by
  rw [tagsOf, List.map_filterMap, List.filterMap_filter]
  refine List.filterMap_congr fun n _ => ?_
  obtain ⟨id, position, role, server⟩ := n
  cases role <;> rfl

/-- The tags of two sorts of nodes, one sort after the other, are distinct if all
tags are. -/
theorem nodup_tagsOf_append {kinds others : Kind → Bool} {nodes : List Node}
    (hapart : ∀ k, others k = true → kinds k = false) (h : (nodes.filterMap Node.tag?).Nodup) :
    (tagsOf kinds nodes ++ tagsOf others nodes).Nodup := by
  have hothers : (nodes.filter fun n => others n.kind).Sublist
      (nodes.filter fun n => !kinds n.kind) := by
    refine List.monotone_filter_right nodes fun n hn => ?_
    simp [hapart n.kind hn]
  have hsplit : ((nodes.filter fun n => kinds n.kind) ++
      nodes.filter fun n => !kinds n.kind).Perm nodes :=
    List.filter_append_perm (fun n => kinds n.kind) nodes
  have hall : (((nodes.filter fun n => kinds n.kind) ++
      nodes.filter fun n => !kinds n.kind).filterMap Node.tag?).Nodup :=
    (hsplit.filterMap Node.tag?).nodup_iff.mpr h
  rw [tagsOf, tagsOf, ← List.filterMap_append]
  exact (((List.Sublist.refl _).append hothers).filterMap Node.tag?).nodup hall

/-- If the tags of a group are distinct, so are those of the endpoints of its
document. -/
theorem nodup_endpoints (h : (g.nodes.filterMap Node.tag?).Nodup) :
    ((document whole servers o g).inbounds.map Document.Inbound.tag ++
      (document whole servers o g).outbounds.map Document.Outbound.tag).Nodup := by
  show ((g.nodes.filterMap (inboundOf? whole)).map Document.Inbound.tag ++
    (g.nodes.filterMap (outboundOf? whole servers)).map Document.Outbound.tag).Nodup
  rw [inboundTags_eq, outboundTags_eq]
  refine nodup_tagsOf_append (fun k hk => ?_) h
  cases k <;> first | rfl | cases hk

end Compile

/-! ## Tags of a valid graph -/

namespace Audit

variable {g : Graph}

/-- Without S001 no trimmed tag stands at two nodes, be they the same node twice. -/
theorem nodup_plainTags_of_not_s001 (h : (check g).hasCode "S001" = false) :
    (g.nodes.filterMap plainTag?).Nodup := by
  refine List.nodup_iff_count_le_one.mpr fun tag => ?_
  by_contra hmany
  obtain ⟨n, hn, hnt⟩ := List.mem_filterMap.mp
    (List.count_pos_iff.mp (by omega : 0 < (g.nodes.filterMap plainTag?).count tag))
  rw [count_plainTags] at hmany
  have hi : Issue.atNode n.id (.sharedTag tag (g.nodes.countP fun m => plainTag? m = some tag)) ∈
      sharedTags g.nodes := by
    rw [sharedTags_eq]
    refine List.mem_flatMap.mpr ⟨n, hn, ?_⟩
    rw [hnt]
    simp only [when]
    rw [if_pos (by simpa using (by omega : 1 < g.nodes.countP fun m => plainTag? m = some tag))]
    exact List.mem_singleton.mpr rfl
  exact code_ne h (mem_issues_of_shared hi) rfl

/-- Nothing else than a trimmed tag that stands at two nodes is reported as S001. -/
theorem not_s001_of_nodup_plainTags (h : (g.nodes.filterMap plainTag?).Nodup) :
    (check g).hasCode "S001" = false := by
  have hsole : ((checks g).filter fun c => c.1.contains "S001") =
      [(["S001"], sharedTags g.nodes)] := by
    simp [checks]
  rw [Report.hasCode, List.any_eq_false]
  intro i hi hcode
  have hshared : i ∈ (sharedTags g.nodes).filter fun i => i.code = "S001" := by
    rw [← filter_issues hsole]
    exact List.mem_filter.mpr ⟨mem_all.mp hi, decide_eq_true (beq_iff_eq.mp hcode)⟩
  have hmem : i ∈ sharedTags g.nodes := (List.mem_filter.mp hshared).1
  rw [sharedTags_eq] at hmem
  obtain ⟨n, -, hn⟩ := List.mem_flatMap.mp hmem
  split at hn
  case h_1 tag _ =>
    have hcount := List.nodup_iff_count_le_one.mp h tag
    rw [count_plainTags] at hcount
    rw [when, if_neg (by simpa using hcount)] at hn
    cases hn
  case h_2 => cases hn

theorem not_s001_iff :
    (check g).hasCode "S001" = false ↔ (g.nodes.filterMap plainTag?).Nodup :=
  ⟨nodup_plainTags_of_not_s001, not_s001_of_nodup_plainTags⟩

/-- The tags of a valid graph are distinct as they are written. -/
theorem nodup_tags_of_isValid (h : (check g).isValid = true) :
    (g.nodes.filterMap Node.tag?).Nodup := by
  have hshared : (check g).hasCode "S001" = false := clean_of_isValid h (by simp)
  have huntagged : (check g).hasCode "N001" = false := clean_of_isValid h (by simp)
  have hplain : g.nodes.filterMap plainTag? = (g.nodes.filterMap Node.tag?).map Text.trim := by
    rw [List.map_filterMap]
    refine List.filterMap_congr fun n hn => ?_
    rw [plainTag?]
    cases htag : n.tag? with
    | none => rfl
    | some tag => simp [Text.nonBlank?, not_blank_of_not_n001 huntagged hn htag]
  have hnodup := nodup_plainTags_of_not_s001 hshared
  rw [hplain] at hnodup
  exact hnodup.of_map _

end Audit

/-! ## The documents of a client graph -/

namespace Client

variable {g : Graph} {o : Compile.Options}

theorem clientDocument_linked : (g.clientDocument o).Linked := by
  intro r hr
  obtain ⟨n, -, hr⟩ := List.mem_flatMap.mp hr
  rw [Graph.rulesOf] at hr
  split at hr
  case h_1 c _ =>
    obtain ⟨tag, htag, rfl⟩ := List.mem_map.mp hr
    obtain ⟨m, hm, hmt⟩ := List.mem_filterMap.mp htag
    exact ⟨c.predicates, .outbound tag, rfl, mem_outbounds (mem_of_mem_targets hm) hmt⟩
  case h_2 => cases hr

theorem relayDocument_linked (r next : Relay) : (relayDocument r next o).Linked := by
  intro rule hrule
  obtain rfl := List.mem_singleton.mp hrule
  refine ⟨_, .outbound next.tag, rfl, List.mem_map.mpr ⟨next.outbound, ?_, rfl⟩⟩
  exact List.mem_cons_self

theorem compile_linked {out : Compile.Output} (h : out ∈ g.compile o) : out.document.Linked := by
  obtain rfl | ⟨n, r, next, -, rfl⟩ := mem_compile.mp h
  · exact clientDocument_linked
  · exact relayDocument_linked r next

end Client

/-! ## All documents -/

/-- Whatever is compiled, no rule of a document leads to an outbound or balancer
that is not declared, and none leads nowhere; and the tags of the endpoints do
not repeat if the graph is valid. -/
theorem compile_wellLinked (o : Compile.Options) :
    (∀ t : Topology, ∀ out ∈ t.compile o,
      out.document.hasFlaw "D002" = false ∧ out.document.hasFlaw "D003" = false ∧
        ((Audit.check t.graph).isValid = true → out.document.hasFlaw "D001" = false)) ∧
    ∀ g : Client.Graph, ∀ out ∈ g.compile o,
      out.document.hasFlaw "D002" = false ∧ out.document.hasFlaw "D003" = false := by
  refine ⟨fun t out hout => ?topology, fun g out hout => (Client.compile_linked hout).hasFlaw⟩
  obtain ⟨g, hg, rfl⟩ := List.mem_map.mp hout
  have hlinked : (Compile.document ⟨t.nodes, t.edges⟩ t.servers o g).Linked :=
    Compile.document_linked
  obtain ⟨hundeclared, hnowhere⟩ := hlinked.hasFlaw
  refine ⟨hundeclared, hnowhere, fun hvalid => ?_⟩
  have hall : (t.nodes.filterMap Node.tag?).Nodup := Audit.nodup_tags_of_isValid hvalid
  have hown := ((Compile.nodes_of_mem_groups hg).filterMap Node.tag?).nodup hall
  exact Document.hasFlaw_of_nodup (Compile.nodup_endpoints hown)

/-! ### Instances -/

/-- Two servers, one of which is listed twice; the outbound of the one leads to
the inbound of the other. -/
def relayed : Topology where
  nodes := [
    ⟨"near", .origin, .inbound ⟨"near", .socks, "", 1080, none, [], none, none⟩, some "home"⟩,
    ⟨"out", .origin, .proxy ⟨"out", .socks, "192.0.2.1", 1081, none, none, none, none⟩, some "home"⟩,
    ⟨"far", .origin, .inbound ⟨"far", .socks, "", 1081, none, [], none, none⟩, some "away"⟩,
    ⟨"exit", .origin, .terminal ⟨"exit", .freedom⟩, some "away"⟩]
  edges := [⟨"a", "near", "out", .plain, none⟩, ⟨"b", "out", "far", .plain, none⟩,
    ⟨"c", "far", "exit", .plain, none⟩]
  servers := [⟨"home", "Home", "", none⟩, ⟨"home", "Home", "", none⟩]

/-- A user whose rule sends one domain to nowhere, past a server. -/
def phone : Client.Graph where
  nodes := [⟨"u", .origin, .user .usual, none⟩,
    ⟨"s", .origin, .server ⟨"far", .socks, "192.0.2.1", 1081, none, none, none, none⟩, none⟩,
    ⟨"b", .origin, .block "block", none⟩,
    ⟨"r", .origin, .rules ⟨"ads", { Predicates.none with domain := ["domain:ads.example"] }⟩, none⟩]
  edges := [⟨"a", "u", "s", .plain, none⟩, ⟨"b", "r", "b", .plain, none⟩]

theorem compile_wellLinked_relayed :
    (Audit.check relayed.graph).isValid = true ∧
      (∃ out rest, relayed.compile .usual = out :: rest ∧ out.document.hasFlaw "D001" = false ∧
        out.document.hasFlaw "D002" = false ∧ out.document.hasFlaw "D003" = false) ∧
      ∃ out rest, phone.compile .usual = out :: rest ∧ out.document.hasFlaw "D002" = false ∧
        out.document.hasFlaw "D003" = false := by
  have hvalid : (Audit.check relayed.graph).isValid = true := by decide +kernel
  refine ⟨hvalid, ?relayed, _, _, rfl, (compile_wellLinked .usual).2 phone _ List.mem_cons_self⟩
  cases hall : relayed.compile .usual with
  | nil =>
    have hcount : (relayed.compile .usual).length = 3 := by decide +kernel
    rw [hall] at hcount
    cases hcount
  | cons out rest =>
    obtain ⟨hundeclared, hnowhere, hunique⟩ :=
      (compile_wellLinked .usual).1 relayed out (by rw [hall]; exact List.mem_cons_self)
    exact ⟨out, rest, rfl, hunique hvalid, hundeclared, hnowhere⟩

end ProxyPlan
