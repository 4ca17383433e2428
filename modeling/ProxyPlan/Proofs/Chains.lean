/-
ProxyPlan.Proofs.Chains — requests that pass several routing nodes.

On its way through the graph a request follows the first link of every routing
node it comes to; only the inbound looks at predicates. A document knows no such
chains. A link between routing nodes becomes no rule, and the last routing node
of a chain speaks for itself, with its own predicates and in its own place.

So the document sends a request where its walk goes just when the last routing
node is the one that decides (`Compile.decider?`). Behind a single routing node
this is always so: with one inbound, the order of the document is the order in
which the inbound tries its links (`decider?_of_walk`). Behind a longer chain
the last node may not match (`chained`), or a node before it in the document may.
-/
import ProxyPlan.Proofs.Decider

namespace ProxyPlan

/-! ## Parts of a walk -/

namespace Trace

variable {g : Graph} {pick : Picker} {r : Request} {visited : List String} {calls : List Nat}
  {n : Node} {t : Trace}

variable [Rule.Patterns]

/-- Where a second node follows, the first passes the request on to it. -/
theorem Way.passed_on (h : Way g pick r visited calls n t) {m next : Node} {rest : List Node}
    (hnodes : t.steps.map Step.node = m :: next :: rest) :
    m = n ∧ ∃ remark e calls' visited' onward,
      decision g pick r calls n = .pass remark (e, next) calls' ∧ Way g pick r visited' calls' next onward ∧ onward.steps.map Step.node = next :: rest := by
  cases h with
  | again => simp [revisit] at hnodes
  | kept => simp at hnodes
  | passed new passed onward =>
    obtain ⟨s, steps, hsteps, rfl⟩ := onward.head
    simp only [Onto, hsteps, List.map_cons, List.cons.injEq] at hnodes
    obtain ⟨rfl, rfl, hrest⟩ := hnodes
    exact ⟨rfl, _, _, _, _, _, passed, onward, by rw [hsteps, List.map_cons, hrest]⟩

/-- Each node of a walk passes the request on to the next. -/
theorem Way.passed_on_at (h : Way g pick r visited calls n t) {before rest : List Node}
    {m next : Node} (hnodes : t.steps.map Step.node = before ++ m :: next :: rest) :
    ∃ remark e calls₁ calls₂, decision g pick r calls₁ m = .pass remark (e, next) calls₂ := by
  induction before generalizing visited calls n t with
  | nil =>
    obtain ⟨rfl, remark, e, calls', -, -, hpass, -⟩ := h.passed_on hnodes
    exact ⟨remark, e, calls, calls', hpass⟩
  | cons first before ih =>
    have hsecond : ∃ second after, before ++ m :: next :: rest = second :: after := by
      cases before with
      | nil => exact ⟨_, _, rfl⟩
      | cons second before => exact ⟨_, _, rfl⟩
    obtain ⟨second, after, hsplit⟩ := hsecond
    rw [List.cons_append, hsplit] at hnodes
    obtain ⟨-, _, _, _, _, onward, -, hway, hrest⟩ := h.passed_on hnodes
    exact ih hway (hrest.trans hsplit.symm)

/-- A walk of some steps begins at the inbound of the request. -/
theorem run_begins {i : Node} {rest : List Node}
    (hnodes : (run g pick calls r).steps.map Step.node = i :: rest) :
    i ∈ g.nodes ∧ (∃ c, Node.inbound? i = some c ∧ c.tag = r.inboundTag) ∧
      Way g pick r [] calls i (run g pick calls r) := by
  cases hentrance : entrance? g r with
  | none => simp [run, hentrance] at hnodes
  | some n =>
    have hway : Way g pick r [] calls n (run g pick calls r) := run_way hentrance
    obtain ⟨s, steps, hsteps, rfl⟩ := hway.head
    simp only [hsteps, List.map_cons, List.cons.injEq] at hnodes
    obtain ⟨rfl, -⟩ := hnodes
    have htag := List.find?_some hentrance
    simp only [Option.any_eq_true, beq_iff_eq] at htag
    exact ⟨List.mem_of_find?_eq_some hentrance, htag, hway⟩

/-- A routing node passes a request on along its first link. -/
theorem exits_of_routing {remark : Remark} {x : Exit} {calls' : List Nat}
    (hk : n.kind = .routing) (h : decision g pick r calls n = .pass remark x calls') :
    ∃ rest, exits g n.id = x :: rest := by
  obtain ⟨c, hc⟩ := Node.exists_routing? hk
  simp only [decision, Node.routing?_eq_some.mp hc] at h
  cases hexits : exits g n.id with
  | nil => simp [hexits, atRouting] at h
  | cons y rest =>
    simp only [hexits, atRouting, Decision.pass.injEq] at h
    exact ⟨rest, by rw [h.2.1]⟩

/-- An inbound passes a request on to a routing node only as its first match. -/
theorem match_of_inbound {c : Inbound} {remark : Remark} {x : Exit} {calls' : List Nat}
    (hc : Node.inbound? n = some c) (hk : x.2.kind = .routing)
    (h : decision g pick r calls n = .pass remark x calls') :
    (exits g n.id).find? (leadsToMatch ⟨r.domain, r.protocol, r.port, c.tag⟩) = some x := by
  simp only [decision, Node.inbound?_eq_some.mp hc, atInbound] at h
  split at h
  case isTrue => cases h
  case isFalse =>
    split at h
    case h_1 y hy =>
      cases h
      exact hy
    case h_2 =>
      -- past the rules there is no routing node
      split at h
      case h_1 y hy =>
        cases h
        simpa [leadsPastRules, hk] using List.find?_some hy
      case h_2 => cases h

end Trace

/-! ## The node that decides at the end of a chain -/

namespace Compile

open Trace

variable {g : Graph} {pick : Picker} {r : Request} {calls : List Nat}

/-- The first member with one property, if it has another as well, is the first
with both. -/
theorem find?_and {α : Type} {p q : α → Bool} {x : α} {xs : List α} (h : xs.find? p = some x)
    (hq : q x = true) : (xs.find? fun y => p y && q y) = some x := by
  induction xs with
  | nil => cases h
  | cons y rest ih =>
    rw [List.find?_cons] at h ⊢
    cases hp : p y with
    | false =>
      rw [hp] at h
      exact ih h
    | true =>
      rw [hp] at h
      cases h
      simp [hq]

/-- A routing node that passes a request on to a target makes a first rule of
that. -/
theorem head?_targetsOf {n x : Node} {rest : List Exit} {e : Edge} {target : Target}
    (hexits : exits g n.id = (e, x) :: rest) (hx : target? x = some target) :
    (targetsOf g n.id).head? = some target := by
  simp [targetsOf_eq, hexits, hx]

section

variable [Rule.Patterns]

/-- With one inbound, a routing node that passes a request from the inbound on to
a target decides. -/
theorem decider?_of_walk (hids : (g.nodes.map Placed.id).Nodup)
    (hlinked : ∀ e ∈ g.edges, g.isLink e = true)
    (hone : (g.nodes.filter fun n => n.kind = .inbound).length = 1) {i n x : Node}
    {rest : List Node}
    (hnodes : (run g pick calls r).steps.map Step.node = i :: n :: x :: rest)
    (hn : n.kind = .routing) (hx : (target? x).isSome = true) :
    decider? g ⟨r.domain, r.protocol, r.port, r.inboundTag⟩ = some n.id := by
  obtain ⟨hi, ⟨c, hc, htag⟩, hway⟩ := run_begins hnodes
  obtain ⟨-, remark, e, calls', visited', onward, hpass, honward, hrest⟩ := hway.passed_on hnodes
  obtain ⟨-, remark', e', calls'', -, -, hpass', -⟩ := honward.passed_on hrest
  obtain ⟨others, hexits⟩ := exits_of_routing hn hpass'
  obtain ⟨target, htarget⟩ := Option.isSome_iff_exists.mp hx
  have hmatch := match_of_inbound hc hn hpass
  rw [htag] at hmatch
  have hanswers := find?_entered hids hlinked hi (Node.kind_of_inbound? hc)
    (s := ⟨r.domain, r.protocol, r.port, r.inboundTag⟩) fun e _ hentry _ =>
      source_of_isEntry hone hi (Node.kind_of_inbound? hc) hentry
  rw [hmatch, Option.map_some] at hanswers
  have hrule : (!(targetsOf g n.id).isEmpty) = true := by
    have hhead := head?_targetsOf hexits htarget
    cases htargets : targetsOf g n.id with
    | nil => simp [htargets] at hhead
    | cons => rfl
  have hdecides : (entered g).find? (decides g ⟨r.domain, r.protocol, r.port, r.inboundTag⟩) =
      some n.id := find?_and hanswers hrule
  rw [decider?, routingOrder, List.find?_append, hdecides, Option.some_or]

/-! ## Walks and first rules -/

/-- In a valid topology with one inbound and without servers, let a request pass
through routing nodes to a target. If the last of them is the one that decides,
the first rule that accepts the request leads to this target; and if there is
only one of them, it is the one that decides. -/
theorem compile_chain {t : Topology} (hids : (t.nodes.map Placed.id).Nodup)
    (hgroup : ∀ n ∈ t.nodes, Node.group n = none)
    (hvalid : (Audit.check t.graph).isValid = true)
    (hone : (t.nodes.filter fun n => n.kind = .inbound).length = 1) {i last x : Node}
    {chain rest : List Node}
    (hnodes : (run t.graph pick calls r).steps.map Step.node = i :: chain ++ last :: x :: rest)
    (hrouting : ∀ n ∈ chain ++ [last], n.kind = .routing)
    (hx : x.kind = .balancer ∨ x.kind.isOutbound = true) (o : Options) :
    ∃ out, t.compile o = [out] ∧
      (chain = [] →
        decider? t.graph ⟨r.domain, r.protocol, r.port, r.inboundTag⟩ = some last.id) ∧
      (decider? t.graph ⟨r.domain, r.protocol, r.port, r.inboundTag⟩ = some last.id →
        ∃ rule, out.document.routing.rules.find?
            (·.accepts ⟨r.domain, r.protocol, r.port, r.inboundTag⟩) = some rule ∧
          rule.leadsTo x) := by
  obtain ⟨out, hout, hrules⟩ := compile_labelled hgroup hvalid o
  have hlinked := Audit.isLink_of_isValid hvalid
  have hlast : last.kind = .routing := hrouting last (by simp)
  have htarget : (target? x).isSome = true := by simpa [target?_isSome] using hx
  refine ⟨out, hout, ?alone, ?decides⟩
  case alone =>
    rintro rfl
    exact decider?_of_walk hids hlinked hone hnodes hlast htarget
  case decides =>
    intro hdecider
    obtain ⟨target, htarget⟩ := Option.isSome_iff_exists.mp htarget
    obtain ⟨-, -, hway⟩ := run_begins hnodes
    obtain ⟨remark, e, calls₁, calls₂, hpass⟩ := hway.passed_on_at hnodes
    obtain ⟨others, hexits⟩ := exits_of_routing hlast hpass
    obtain ⟨d, target', -, -, hhead', hrule⟩ := head?_rulesOf (List.find?_some hdecider)
    obtain rfl : target = target' :=
      Option.some.inj ((head?_targetsOf hexits htarget).symm.trans hhead')
    refine ⟨rule d.predicates target, ?_, rule_leadsTo htarget _⟩
    rw [← hrules, find?_snd, find?_labelled.mpr ⟨hdecider, hrule⟩, Option.map_some]

end

/-! ### Instances -/

/-- A routing node that asks for one domain behind one that asks for another. -/
def chained (first second : String) : Topology where
  nodes := [port "in" "office" 1080, sorter "first" first none, sorter "second" second none,
    exit "direct" .freedom]
  edges := [wire "in" "first", wire "first" "second", wire "second" "direct"]
  servers := []

attribute [local instance] Rule.Patterns.empty

theorem compile_chain_nested :
    ∃ out, (chained "domain:example" "domain:ads.example").compile .usual = [out] ∧
      ∃ rule, out.document.routing.rules.find? (·.accepts ⟨"ads.example", "tcp", 443, "office"⟩) =
          some rule ∧ rule.leadsTo (exit "direct" .freedom) := by
  have hnodes : (run (chained "domain:example" "domain:ads.example").graph firstPicker []
      ⟨"ads.example", "tcp", 443, "office"⟩).steps.map Step.node =
        port "in" "office" 1080 :: [sorter "first" "domain:example" none] ++
          sorter "second" "domain:ads.example" none :: exit "direct" .freedom :: [] := by
    decide +kernel
  obtain ⟨out, hout, -, h⟩ := compile_chain (by decide +kernel) (by decide +kernel)
    (by decide +kernel) (by decide +kernel) hnodes (by decide +kernel) (.inr rfl) .usual
  exact ⟨out, hout, h (by decide +kernel)⟩

/-- The walk passes both routing nodes, and no rule accepts the request. -/
theorem compile_chain_unmatched :
    let t := chained "domain:a.example" "domain:b.example"
    (t.nodes.map Placed.id).Nodup ∧ (∀ n ∈ t.nodes, Node.group n = none) ∧
      (Audit.check t.graph).isValid = true ∧
      (t.nodes.filter fun n => n.kind = .inbound).length = 1 ∧
      (run t.graph firstPicker [] ⟨"a.example", "tcp", 443, "office"⟩).steps.map Step.node = t.nodes ∧
      (t.compile .usual).map (fun out => out.document.routing.rules.find?
        (·.accepts ⟨"a.example", "tcp", 443, "office"⟩)) = [none] := by
  decide +kernel

end Compile
end ProxyPlan
