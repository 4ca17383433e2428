/-
ProxyPlan.Proofs.NormalDocument — what compiled documents look like.

A document that a graph compiles to is in a normal form: each of its entries is
what some node compiles to, its tags and selectors are tight, and its rules
name only what it declares (`Document.Normal`). The graph has to be
`Restorable` for that, which is less than being valid. Taking a document in
normal form over needs no more than the normal form, so that the two directions
meet here and nowhere else.
-/
import ProxyPlan.Proofs.Endpoints
import ProxyPlan.Proofs.Groups
import ProxyPlan.Proofs.RuleMeaning

namespace ProxyPlan

/-! ## Normal forms -/

namespace Document

/-- The inbound is one that a node compiles to. -/
def Inbound.Normal (i : Inbound) : Prop :=
  ∃ c : ProxyPlan.Inbound, Text.Tight c.tag ∧ c.SecretsGiven ∧
    i = Compile.inbound c (Transport.stream? c.transport)

/-- The outbound is one that a node compiles to. -/
def Outbound.Normal (o : Outbound) : Prop :=
  (∃ c, Text.Tight c.tag ∧ o = Compile.terminal c) ∨
    ∃ c, Text.Tight c.tag ∧ o = Compile.proxy c none (Transport.stream? c.transport)

/-- The balancer is one that a node compiles to. -/
structure Balancer.Normal (b : Balancer) : Prop where
  tag : Text.Tight b.tag
  selector : ∀ s ∈ b.selector, Text.Tight s
  strategy : b.strategy = none ∨ ∃ s, s ≠ .random ∧ b.strategy = some (Strategy.name s)

/-- The document declares a target. -/
def Declares (d : Document) : Compile.Target → Prop
  | .outbound tag => tag ∈ d.outbounds.map Outbound.tag
  | .balancer tag => tag ∈ d.routing.balancers.map Balancer.tag

/-- The rule is one that predicates and a target compile to, and it names only
what the document declares. -/
def Rule.Normal (d : Document) (r : Rule) : Prop :=
  ∃ p t, r = Compile.rule p t ∧ d.Declares t ∧
    ∀ tag, p.inboundTag? = some tag → tag ∈ d.inbounds.map Inbound.tag

/-- Every entry of the document is one that a node compiles to. -/
structure Normal (d : Document) : Prop where
  inbounds : ∀ i ∈ d.inbounds, i.Normal
  outbounds : ∀ o ∈ d.outbounds, o.Normal
  balancers : ∀ b ∈ d.routing.balancers, b.Normal
  rules : ∀ r ∈ d.routing.rules, r.Normal d

/-- A document in normal form loses nothing when it is written. -/
theorem Normal.written {d : Document} (h : d.Normal) : d.Written where
  inbounds i hi := by
    obtain ⟨c, -, -, rfl⟩ := h.inbounds i hi
    exact Compile.settingsWritten_inbound c
  outbounds o ho := by
    rcases h.outbounds o ho with ⟨c, -, rfl⟩ | ⟨c, -, rfl⟩
    · exact Compile.settingsWritten_terminal c.protocol
    · exact Compile.settingsWritten_proxy c _ _
  rules r hr := by
    obtain ⟨p, t, rfl, -⟩ := h.rules r hr
    rfl

end Document

/-! ## Graphs whose documents are in normal form -/

/-- What the nodes of a graph have to be like for its document to be taken over
as it is: there is one document, tags can be told apart from a missing one,
rules ask for inbounds that are there, and secrets are given or missing. -/
structure Restorable (nodes : List Node) : Prop where
  ungrouped : ∀ n ∈ nodes, Node.group n = none
  tight : ∀ n ∈ nodes, n.kind ≠ .routing → ∀ tag, n.tag? = some tag → Text.Tight tag
  asked : ∀ n ∈ nodes, ∀ c, n.routing? = some c → ∀ tag, c.predicates.inboundTag? = some tag →
    ∃ m ∈ nodes, ∃ d, m.inbound? = some d ∧ d.tag = tag
  given : ∀ n ∈ nodes, ∀ c, n.inbound? = some c → c.SecretsGiven

instance (c : Inbound) : Decidable c.SecretsGiven :=
  inferInstanceAs (Decidable (∀ u ∈ c.users, u.id ≠ some "" ∧ u.password ≠ some ""))

instance (nodes : List Node) : Decidable (Restorable nodes) :=
  decidable_of_iff
    ((∀ n ∈ nodes, Node.group n = none) ∧
      (∀ n ∈ nodes, n.kind ≠ .routing → ∀ tag ∈ n.tag?, Text.Tight tag) ∧
      (∀ n ∈ nodes, ∀ c ∈ n.routing?, ∀ tag ∈ c.predicates.inboundTag?,
        ∃ m ∈ nodes, ∃ d ∈ m.inbound?, d.tag = tag) ∧
      ∀ n ∈ nodes, ∀ c ∈ n.inbound?, c.SecretsGiven)
    ⟨fun ⟨ungrouped, tight, asked, given⟩ => ⟨ungrouped, tight, asked, given⟩,
      fun h => ⟨h.ungrouped, h.tight, h.asked, h.given⟩⟩

namespace Compile

variable {g : Graph}

theorem mem_inbounds {n : Node} (hn : n ∈ g.nodes) {c : Inbound} (hc : n.inbound? = some c)
    (o : Options) : c.tag ∈ (plainDocument g o).inbounds.map Document.Inbound.tag := by
  refine List.mem_map.mpr ⟨inbound c (Transport.stream? c.transport), ?_, rfl⟩
  exact List.mem_filterMap.mpr ⟨n, hn, by rw [plainInbound?, Node.inbound?_eq_some.mp hc]⟩

/-- What a link can lead to is declared. -/
theorem declares_of_target? {n : Node} (hn : n ∈ g.nodes) {t : Target} (ht : target? n = some t)
    (o : Options) : (plainDocument g o).Declares t := by
  rw [target?] at ht
  split at ht <;> cases ht
  case h_1 c hrole =>
    refine List.mem_map.mpr ⟨terminal c, List.mem_filterMap.mpr ⟨n, hn, ?_⟩, rfl⟩
    rw [plainOutbound?, hrole]
  case h_2 c hrole =>
    refine List.mem_map.mpr ⟨proxy c none (Transport.stream? c.transport),
      List.mem_filterMap.mpr ⟨n, hn, ?_⟩, rfl⟩
    rw [plainOutbound?, hrole]
  case h_3 c hrole =>
    refine List.mem_map.mpr ⟨balancer g.linked n.id c, List.mem_filterMap.mpr ⟨n, hn, ?_⟩, rfl⟩
    rw [balancerOf?, hrole]

theorem mem_targetsOf {id : String} {t : Target} (h : t ∈ targetsOf g id) :
    ∃ e ∈ g.outgoing id, ∃ n ∈ g.nodes, g.target? e = some n ∧ target? n = some t := by
  obtain ⟨e, he, ht⟩ := List.mem_filterMap.mp h
  obtain ⟨n, hn, ht⟩ := Option.bind_eq_some_iff.mp ht
  exact ⟨e, he, n, Graph.node?_mem hn, hn, ht⟩

theorem tight_of_target? (h : Restorable g.nodes) {n : Node} (hn : n ∈ g.nodes) {tag : String}
    (ht : target? n = some (.outbound tag)) : Text.Tight tag := by
  obtain ⟨hkind, htag⟩ := target?_eq_outbound.mp ht
  refine h.tight n hn (fun hrouting => ?_) tag htag
  rw [hrouting] at hkind
  cases hkind

/-- Covering tags adds some of them and nothing else. -/
theorem mem_foldl_cover {selector tags : List String} {s : String}
    (h : s ∈ tags.foldl cover selector) : s ∈ selector ∨ s ∈ tags := by
  induction tags generalizing selector with
  | nil => exact .inl h
  | cons tag rest ih =>
    rcases ih h with hs | hs
    · rw [cover] at hs
      split at hs
      · exact .inl hs
      · rcases List.mem_append.mp hs with hs | hs
        · exact .inl hs
        · exact .inr (List.mem_cons.mpr (.inl (List.mem_singleton.mp hs)))
    · exact .inr (List.mem_cons_of_mem _ hs)

theorem normal_balancer (h : Restorable g.nodes) {n : Node} (hn : n ∈ g.nodes) {c : Balancer}
    (hrole : n.role = .balancer c) : (balancer g.linked n.id c).Normal where
  tag := h.tight n hn (by rw [Node.kind, hrole]; simp [Role.kind]) c.tag (by
    rw [Node.tag?, hrole, Role.tag?])
  selector s hs := by
    rcases mem_foldl_cover hs with hs | hs
    · obtain ⟨raw, -, hraw⟩ := List.mem_filterMap.mp hs
      exact Text.tight_of_nonBlank? hraw
    · obtain ⟨t, ht, hs⟩ := List.mem_filterMap.mp hs
      obtain ⟨e, -, m, hm, -, hmt⟩ := mem_targetsOf ht
      cases t with
      | outbound tag =>
        obtain rfl : tag = s := by simpa [Target.outbound?] using hs
        exact tight_of_target? h hm hmt
      | balancer tag => simp [Target.outbound?] at hs
  strategy := by
    rw [balancer]
    split
    · exact .inl rfl
    case isFalse hne => exact .inr ⟨c.strategy, hne, rfl⟩

/-- Every rule is made of the predicates of a routing node, or of the tag of an
inbound, and of what a link of that node leads to. -/
theorem mem_rules {r : Document.Rule} (h : r ∈ rules g) :
    ∃ n ∈ g.nodes, ∃ id, ∃ t ∈ targetsOf g id,
      (∃ c, n.routing? = some c ∧ r = rule c.predicates t) ∨
        ∃ c, n.inbound? = some c ∧ r = rule (.ofInbound c.tag) t := by
  rcases List.mem_append.mp h with h | h
  · obtain ⟨id, -, h⟩ := List.mem_flatMap.mp h
    split at h
    case h_1 c hc =>
      obtain ⟨t, ht, rfl⟩ := List.mem_map.mp h
      obtain ⟨n, hn, hc⟩ := List.exists_of_findSome?_eq_some hc
      exact ⟨n, List.mem_of_mem_filter hn, id, t, ht, .inl ⟨c, hc, rfl⟩⟩
    case h_2 => cases h
  · obtain ⟨n, hn, h⟩ := List.mem_flatMap.mp h
    split at h
    case h_1 c hc =>
      obtain ⟨t, ht, rfl⟩ := List.mem_map.mp h
      exact ⟨n, hn, n.id, t, ht, .inr ⟨c, hc, rfl⟩⟩
    case h_2 => cases h

/-- A restorable graph compiles to a document in normal form. -/
theorem normal_plainDocument (h : Restorable g.nodes) (o : Options) :
    (plainDocument g o).Normal where
  inbounds i hi := by
    obtain ⟨n, hn, hi⟩ := List.mem_filterMap.mp hi
    rw [plainInbound?] at hi
    split at hi <;> cases hi
    case h_1 c hrole =>
      have hc : n.inbound? = some c := Node.inbound?_eq_some.mpr hrole
      refine ⟨c, h.tight n hn ?_ c.tag (Node.tag?_of_inbound? hc), h.given n hn c hc, rfl⟩
      rw [Node.kind_of_inbound? hc]
      decide
  outbounds := by
    intro out ho
    obtain ⟨n, hn, ho⟩ := List.mem_filterMap.mp ho
    rw [plainOutbound?] at ho
    split at ho <;> cases ho
    case h_1 c hrole =>
      exact .inl ⟨c, tight_of_target? h hn (by rw [target?, hrole]), rfl⟩
    case h_2 c hrole =>
      exact .inr ⟨c, tight_of_target? h hn (by rw [target?, hrole]), rfl⟩
  balancers b hb := by
    obtain ⟨n, hn, hb⟩ := List.mem_filterMap.mp hb
    rw [balancerOf?] at hb
    split at hb <;> cases hb
    case h_1 c hrole => exact normal_balancer h hn hrole
  rules r hr := by
    obtain ⟨n, hn, id, t, ht, hmade⟩ := mem_rules hr
    obtain ⟨e, -, m, hm, -, hmt⟩ := mem_targetsOf ht
    have hdeclares := declares_of_target? (g := g) hm hmt o
    rcases hmade with ⟨c, hc, rfl⟩ | ⟨c, hc, rfl⟩
    · refine ⟨c.predicates, t, rfl, hdeclares, fun tag htag => ?_⟩
      obtain ⟨k, hk, d, hd, rfl⟩ := h.asked n hn c hc tag htag
      exact mem_inbounds hk hd o
    · refine ⟨.ofInbound c.tag, t, rfl, hdeclares, fun tag htag => ?_⟩
      have htight : Text.Tight c.tag := by
        refine h.tight n hn ?_ c.tag (Node.tag?_of_inbound? hc)
        rw [Node.kind_of_inbound? hc]
        decide
      have hasks : (Predicates.ofInbound c.tag).inboundTag? = some c.tag := htight.nonBlank?
      obtain rfl : c.tag = tag := Option.some.inj (hasks.symm.trans htag)
      exact mem_inbounds hn hc o

end Compile
end ProxyPlan
