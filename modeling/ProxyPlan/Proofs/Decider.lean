/-
ProxyPlan.Proofs.Decider — the routing node that a document lets decide.

A document holds the rules of all its inbounds in one list. A rule that was made
of a routing node asks for what that node asks for and for nothing else; which
inbounds lead to the node is not written into it. So the first rule that accepts
a request is found without looking at links at all: it belongs to the first
routing node, in the order of the document, that has a rule and matches
(`decider?`, `find?_labelled`).

An inbound is protected from the rules of another one by tags only. Where a
routing node that it does not lead to asks for no inbound, the rules of that
node catch its requests (`strayed`, `unentered`); where all such nodes ask for
other inbounds, they never do (`compile_routedFrom`).
-/
import ProxyPlan.Proofs.FirstRule

namespace ProxyPlan

/-! ## Links through routing nodes -/

/-- Links lead from one node to the other, past routing nodes only. -/
inductive Graph.RoutedFrom (g : Graph) (start : String) : String → Prop where
  | link {e : Edge} (mem : e ∈ g.edges) (source : e.source = start) : g.RoutedFrom start e.target
  | onward {id : String} {e : Edge} (before : g.RoutedFrom start id)
      (inner : g.kind? id = some .routing) (mem : e ∈ g.edges) (source : e.source = id) :
      g.RoutedFrom start e.target

/-- Identities that the links do not leave are all that is led to. -/
theorem Graph.RoutedFrom.closed {g : Graph} {start id : String} {within : List String}
    (hstart : ∀ e ∈ g.edges, e.source = start → e.target ∈ within)
    (honward : ∀ e ∈ g.edges, e.source ∈ within → g.kind? e.source = some .routing →
      e.target ∈ within) (h : g.RoutedFrom start id) : id ∈ within := by
  induction h with
  | link mem source => exact hstart _ mem source
  | onward _ inner mem source ih =>
    subst source
    exact honward _ mem ih inner

namespace Compile

/-! ## Rules and what they are made of -/

/-- What a rule is made of: a routing node, or an inbound that leads straight to
a target. -/
inductive Origin where
  | routing (id : String)
  | inbound (id : String)
deriving DecidableEq

/-- The rules of a graph, each with what it is made of. -/
def labelled (g : Graph) : List (Origin × Document.Rule) :=
  ((routingOrder g).flatMap fun id => (rulesOf g id).map (Prod.mk (.routing id))) ++
    g.nodes.flatMap fun n => (directRulesOf g n).map (Prod.mk (.inbound n.id))

theorem labelled_rules (g : Graph) : (labelled g).map Prod.snd = rules g := by
  have hsnd : ∀ (o : Origin) (rs : List Document.Rule), (rs.map (Prod.mk o)).map Prod.snd = rs := by
    intro o rs
    rw [List.map_map]
    exact List.map_id rs
  rw [labelled, List.map_append, List.map_flatMap, List.map_flatMap, rules, routingRules_eq,
    directRules_eq]
  simp only [hsnd]

/-- The rules of a valid topology without servers are those of its nodes. -/
theorem compile_labelled {t : Topology} (hgroup : ∀ n ∈ t.nodes, Node.group n = none)
    (hvalid : (Audit.check t.graph).isValid = true) (o : Options) :
    ∃ out, t.compile o = [out] ∧
      (labelled t.graph).map Prod.snd = out.document.routing.rules := by
  refine ⟨_, compile_ungrouped hgroup o, ?_⟩
  rw [labelled_rules]
  show rules t.graph = rules t.graph.linked
  rw [Graph.linked_eq_self (Audit.isLink_of_isValid hvalid)]

/-! ## The first rule -/

variable [Rule.Patterns]

/-- The routing node matches a request and has a rule for it. -/
def decides (g : Graph) (s : Rule.Subject) (id : String) : Bool :=
  answers g s id && !(targetsOf g id).isEmpty

/-- The first routing node of the document that matches a request and has a rule
for it. -/
def decider? (g : Graph) (s : Rule.Subject) : Option String :=
  (routingOrder g).find? (decides g s)

variable {g : Graph} {s : Rule.Subject} {id : String}

/-- Of the rules of a routing node the first accepts, or none. -/
theorem find?_rulesOf : (rulesOf g id).find? (·.accepts s) =
    if decides g s id then (rulesOf g id).head? else none := by
  cases hc : routingOf? g id with
  | none => simp [rulesOf, hc]
  | some c =>
    simp only [rulesOf, decides, answers, hc, find?_rules, Option.any_some, List.head?_map]
    cases Rule.predicatesMatch c.predicates s <;> cases targetsOf g id <;> rfl

/-- A routing node that decides has a first rule. -/
theorem head?_rulesOf (h : decides g s id = true) :
    ∃ c target, routingOf? g id = some c ∧ Rule.predicatesMatch c.predicates s = true ∧
      (targetsOf g id).head? = some target ∧
      (rulesOf g id).head? = some (rule c.predicates target) := by
  simp only [decides, answers, Bool.and_eq_true, Option.any_eq_true, Bool.not_eq_true',
    List.isEmpty_eq_false_iff] at h
  obtain ⟨⟨c, hc, hmatch⟩, htargets⟩ := h
  obtain ⟨target, rest, htargets⟩ := List.exists_cons_of_ne_nil htargets
  exact ⟨c, target, hc, hmatch, by simp [htargets], by simp [rulesOf, hc, htargets]⟩

theorem isSome_find?_rulesOf : ((rulesOf g id).find? (·.accepts s)).isSome = decides g s id := by
  rw [find?_rulesOf]
  cases hd : decides g s id with
  | false => rfl
  | true =>
    obtain ⟨c, target, -, -, -, hhead⟩ := head?_rulesOf hd
    simp [hhead]

theorem find?_labelledOf (o : Origin) (rs : List Document.Rule) :
    (rs.map (Prod.mk o)).find? (fun x => x.2.accepts s) =
      (rs.find? (·.accepts s)).map (Prod.mk o) := by
  rw [List.find?_map]
  rfl

theorem find?_snd (rs : List (Origin × Document.Rule)) :
    (rs.map Prod.snd).find? (·.accepts s) = (rs.find? fun x => x.2.accepts s).map Prod.snd := by
  rw [List.find?_map]
  rfl

/-- Among the rules of routing nodes, the first that accepts a request is the
first rule of the node that decides. -/
theorem find?_labelledRouting :
    ((routingOrder g).flatMap fun id => (rulesOf g id).map (Prod.mk (Origin.routing id))).find?
        (fun x => x.2.accepts s) =
      (decider? g s).bind fun id => (rulesOf g id).head?.map (Prod.mk (.routing id)) := by
  have hsome : ∀ id, (((rulesOf g id).map (Prod.mk (Origin.routing id))).find?
      (fun x => x.2.accepts s)).isSome = decides g s id := by
    intro id
    rw [find?_labelledOf, Option.isSome_map, isSome_find?_rulesOf]
  rw [List.find?_flatMap, Order.findSome?_eq_bind fun id _ => hsome id, ← decider?]
  cases hfound : decider? g s with
  | none => rfl
  | some id =>
    simp only [Option.bind_some, find?_labelledOf, find?_rulesOf, List.find?_some hfound, if_true]

/-- A rule of a routing node is the first to accept a request just when the node
decides. -/
theorem find?_labelled {r : Document.Rule} :
    (labelled g).find? (fun x => x.2.accepts s) = some (.routing id, r) ↔
      decider? g s = some id ∧ (rulesOf g id).head? = some r := by
  rw [labelled, List.find?_append, find?_labelledRouting]
  cases hd : decider? g s with
  | none =>
    -- what is left are rules of inbounds
    simp only [Option.bind_none, Option.none_or, reduceCtorEq, false_and, iff_false]
    intro hfound
    obtain ⟨n, -, hmem⟩ := List.mem_flatMap.mp (List.mem_of_find?_eq_some hfound)
    obtain ⟨r', -, heq⟩ := List.mem_map.mp hmem
    cases heq
  | some id' =>
    obtain ⟨c, target, -, -, -, hhead⟩ := head?_rulesOf (List.find?_some hd)
    simp only [Option.bind_some, hhead, Option.map_some, Option.some_or, Option.some.injEq,
      Prod.mk.injEq, Origin.routing.injEq]
    constructor
    · rintro ⟨rfl, rfl⟩
      exact ⟨rfl, hhead⟩
    · rintro ⟨rfl, hr⟩
      exact ⟨rfl, by simpa [hhead] using hr⟩

end Compile

/-! ## Requests of one inbound and rules of another -/

/-- A rule is open to what comes in through an inbound: it asks for this inbound,
or for none. -/
def Predicates.openTo (p : Predicates) (tag : String) : Prop :=
  ∀ asked, p.inboundTag? = some asked → asked = tag

namespace Compile

/-- What comes in through an inbound is decided by the first routing node of the
document that has a rule and matches. Such a node is open to the inbound; and if
the inbound leads to every node with rules that are open to it, it leads to the
one that decides. -/
theorem compile_routedFrom [Rule.Patterns] {t : Topology} (hids : (t.nodes.map Placed.id).Nodup)
    (hgroup : ∀ n ∈ t.nodes, Node.group n = none)
    (hvalid : (Audit.check t.graph).isValid = true) {b : Node} {c : Inbound} {s : Rule.Subject}
    (hb : b ∈ t.nodes ∧ Node.inbound? b = some c ∧ s.inboundTag = c.tag) (o : Options) :
    ∃ out, t.compile o = [out] ∧ (labelled t.graph).map Prod.snd = out.document.routing.rules ∧
      ∀ id r, (labelled t.graph).find? (fun x => x.2.accepts s) = some (.routing id, r) →
        decider? t.graph s = some id ∧
        (∃ n ∈ t.nodes, n.id = id ∧ ∃ d, Node.routing? n = some d ∧ d.predicates.openTo c.tag) ∧
        ((∀ n ∈ t.nodes, ∀ d, Node.routing? n = some d → targetsOf t.graph n.id ≠ [] →
            d.predicates.openTo c.tag → t.graph.RoutedFrom b.id n.id) →
          t.graph.RoutedFrom b.id id) := by
  obtain ⟨out, hout, hrules⟩ := compile_labelled hgroup hvalid o
  refine ⟨out, hout, hrules, ?_⟩
  intro id r hfirst
  obtain ⟨hdecider, -⟩ := find?_labelled.mp hfirst
  obtain ⟨d, target, hd, hmatch, htarget, -⟩ := head?_rulesOf (List.find?_some hdecider)
  rw [routingOf?_eq hids] at hd
  obtain ⟨n, hn, hnd⟩ := Option.bind_eq_some_iff.mp hd
  have hopen : d.predicates.openTo c.tag := by
    intro asked hasked
    rw [Rule.predicatesMatch_eq, Rule.categoriesHold, hasked] at hmatch
    simp only [Bool.and_eq_true] at hmatch
    rw [← hb.2.2]
    simpa [Rule.absentOr] using hmatch.1.1.1.1.1
  have hnid := Graph.node?_id hn
  refine ⟨hdecider, ⟨n, Graph.node?_mem hn, hnid, d, hnd, hopen⟩, ?_⟩
  intro hall
  have htargets : targetsOf t.graph n.id ≠ [] := by
    intro hnil
    simp [hnid ▸ hnil] at htarget
  exact hnid ▸ hall n (Graph.node?_mem hn) d hnd htargets hopen

/-! ### Instances -/

/-- An inbound that is known by its tag. -/
def port (id tag : String) (number : UInt32) : Node :=
  ⟨id, .origin, .inbound ⟨tag, .socks, "", number, none, [], none, none⟩, none⟩

/-- A routing node for one domain. -/
def sorter (id domain : String) (asked : Option String) : Node :=
  ⟨id, .origin, .routing ⟨id, { Predicates.none with domain := [domain], inboundTag := asked }⟩,
    none⟩

/-- A terminal outbound that is known by its identity. -/
def exit (id : String) (protocol : TerminalProtocol) : Node :=
  ⟨id, .origin, .terminal ⟨id, protocol⟩, none⟩

/-- A plain edge. -/
def wire (source target : String) : Edge :=
  ⟨source ++ "-" ++ target, source, target, .plain, none⟩

/-- Two inbounds, of which one blocks a domain for itself only. -/
def guarded : Topology where
  nodes := [port "in" "office" 1080, port "guest" "guest" 1081,
    sorter "ads" "domain:ads.example" (some "office"), sorter "all" "domain:example" (some "guest"),
    exit "block" .blackhole, exit "direct" .freedom]
  edges := [wire "in" "ads", wire "ads" "block", wire "guest" "all", wire "all" "direct",
    wire "in" "direct"]
  servers := []

section

attribute [local instance] Rule.Patterns.empty

theorem compile_routedFrom_guarded :
    (labelled guarded.graph).find? (fun x => x.2.accepts ⟨"ads.example", "tcp", 443, "office"⟩) =
        some (.routing "ads", rule
          { Predicates.none with domain := ["domain:ads.example"], inboundTag := some "office" }
          (.outbound "block")) ∧
      guarded.graph.RoutedFrom "in" "ads" := by
  have hfirst : (labelled guarded.graph).find?
      (fun x => x.2.accepts ⟨"ads.example", "tcp", 443, "office"⟩) =
        some (.routing "ads", rule
          { Predicates.none with domain := ["domain:ads.example"], inboundTag := some "office" }
          (.outbound "block")) := by decide +kernel
  obtain ⟨out, -, -, h⟩ := compile_routedFrom (t := guarded) (b := port "in" "office" 1080)
    (s := ⟨"ads.example", "tcp", 443, "office"⟩)
    (by decide +kernel) (by decide +kernel) (by decide +kernel) ⟨by decide +kernel, rfl, rfl⟩ .usual
  refine ⟨hfirst, (h _ _ hfirst).2.2 ?_⟩
  intro n hn d hd _ hopen
  simp only [guarded, List.mem_cons, List.not_mem_nil, or_false] at hn
  obtain rfl | rfl | rfl | rfl | rfl | rfl := hn <;> cases hd
  · exact .link (e := wire "in" "ads") (by decide +kernel) rfl
  · -- the other routing node asks for the other inbound
    exact absurd (hopen "guest" (by decide +kernel)) (by decide)

end

/-- The first rule that accepts a request is one of a routing node to which the
inbound of the request does not lead. -/
def Strays [Rule.Patterns] (t : Topology) (b : Node) (s : Rule.Subject) : Prop :=
  (t.nodes.map Placed.id).Nodup ∧ (∀ n ∈ t.nodes, Node.group n = none) ∧
    (Audit.check t.graph).isValid = true ∧
    (b ∈ t.nodes ∧ ∃ c, Node.inbound? b = some c ∧ s.inboundTag = c.tag) ∧
    ∃ out, t.compile .usual = [out] ∧
      (labelled t.graph).map Prod.snd = out.document.routing.rules ∧
      ∃ id r, (labelled t.graph).find? (fun x => x.2.accepts s) = some (.routing id, r) ∧
        ¬ t.graph.RoutedFrom b.id id

/-- Two inbounds, of which one blocks a domain for whatever comes in. -/
def shared : Topology where
  nodes := [port "in" "office" 1080, port "guest" "guest" 1081,
    sorter "ads" "domain:ads.example" none, exit "block" .blackhole, exit "direct" .freedom]
  edges := [wire "in" "ads", wire "ads" "block", wire "in" "direct", wire "guest" "direct"]
  servers := []

/-- A routing node that no inbound leads to. -/
def unentered : Topology where
  nodes := [port "in" "office" 1080, sorter "ads" "domain:ads.example" none,
    exit "block" .blackhole, exit "direct" .freedom]
  edges := [wire "ads" "block", wire "in" "direct"]
  servers := []

/-- The node that decides stands outside of what the inbound leads to. -/
theorem strays_of_decider? [Rule.Patterns] {t : Topology} {b : Node} {s : Rule.Subject}
    (id : String) (within : List String) (hids : (t.nodes.map Placed.id).Nodup)
    (hgroup : ∀ n ∈ t.nodes, Node.group n = none)
    (hvalid : (Audit.check t.graph).isValid = true)
    (hb : b ∈ t.nodes ∧ ∃ c, Node.inbound? b = some c ∧ s.inboundTag = c.tag)
    (hdecider : decider? t.graph s = some id)
    (hstart : ∀ e ∈ t.edges, e.source = b.id → e.target ∈ within)
    (honward : ∀ e ∈ t.edges, e.source ∈ within → t.graph.kind? e.source = some .routing →
      e.target ∈ within) (hout : id ∉ within) : Strays t b s := by
  obtain ⟨out, hcompile, hrules⟩ := compile_labelled hgroup hvalid .usual
  obtain ⟨d, target, -, -, -, hhead⟩ := head?_rulesOf (List.find?_some hdecider)
  exact ⟨hids, hgroup, hvalid, hb, out, hcompile, hrules, id, _,
    find?_labelled.mpr ⟨hdecider, hhead⟩, fun h => hout (h.closed hstart honward)⟩

attribute [local instance] Rule.Patterns.empty

theorem compile_strays :
    Strays shared (port "guest" "guest" 1081) ⟨"ads.example", "tcp", 443, "guest"⟩ ∧
      Strays unentered (port "in" "office" 1080) ⟨"ads.example", "tcp", 443, "office"⟩ := by
  constructor
  case left =>
    refine strays_of_decider? "ads" ["direct"] ?_ ?_ ?_ ⟨?_, _, rfl, rfl⟩ ?_ ?_ ?_ ?_ <;>
      decide +kernel
  case right =>
    refine strays_of_decider? "ads" ["direct"] ?_ ?_ ?_ ⟨?_, _, rfl, rfl⟩ ?_ ?_ ?_ ?_ <;>
      decide +kernel

end Compile
end ProxyPlan
