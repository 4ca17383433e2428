/-
ProxyPlan.Proofs.RuleMeaning — what the rules of a document mean.

A rule of a document is read like the predicates it was made of: every category
that stands in it must hold, and within a category one entry is enough. Making
a rule of predicates leaves out what is absent and nothing else, so the rule
accepts the requests that the predicates match (`rule_accepts`). The first
accepting rule of a graph can then be looked for among its nodes. Where a rule
leads is named by a tag, and a node is what is meant by a target if it is of
the right kind and has this tag.
-/
import ProxyPlan.Compile.Routing
import ProxyPlan.Proofs.Graph
import ProxyPlan.Proofs.Text

namespace ProxyPlan

/-- A rule accepts a request that has come in through an inbound. No name is
resolved: addresses count when the domains of the same rule do. -/
def Document.Rule.accepts [Rule.Patterns] (r : Document.Rule) (s : Rule.Subject) : Bool :=
  let domainHolds := r.domain.any fun rules => rules.any (Rule.matchesDomain · s.domain)
  r.inboundTag.all (fun tags => tags.contains s.inboundTag) &&
    r.domain.all (fun _ => domainHolds) && r.ip.all (fun _ => domainHolds) &&
    r.port.all (Rule.matchesPort · s.port) &&
    r.protocol.all (fun names =>
      names.any fun name => Text.sameIgnoringCase (Text.trim name) s.protocol) &&
    r.network.all (Rule.networkMatches · s.protocol)

namespace Rule

/-- A rule without any category holds in all of them. -/
theorem predicatesMatch_eq [Rule.Patterns] (p : Predicates) (s : Subject) :
    predicatesMatch p s = categoriesHold p s := by
  cases h : p.isCatchAll with
  | false => simp [predicatesMatch, h]
  | true =>
    simp only [Predicates.isCatchAll, Bool.and_eq_true, List.isEmpty_iff,
      Option.isNone_iff_eq_none] at h
    obtain ⟨⟨⟨⟨⟨hd, hi⟩, hp⟩, hport⟩, hn⟩, ht⟩ := h
    simp [predicatesMatch, categoriesHold, absentOr, hd, hi, hp, hport, hn, ht]

end Rule

namespace Compile

/-! ## Targets -/

theorem target?_isSome (n : Node) :
    (target? n).isSome = (n.kind = .balancer || n.kind.isOutbound) := by
  obtain ⟨id, position, role, server⟩ := n
  cases role <;> rfl

theorem target?_eq_outbound {n : Node} {tag : String} :
    target? n = some (.outbound tag) ↔ n.kind.isOutbound = true ∧ n.tag? = some tag := by
  obtain ⟨id, position, role, server⟩ := n
  cases role <;> simp [target?, Node.kind, Node.tag?, Role.kind, Role.tag?, Kind.isOutbound]

theorem target?_eq_balancer {n : Node} {tag : String} :
    target? n = some (.balancer tag) ↔ n.kind = .balancer ∧ n.tag? = some tag := by
  obtain ⟨id, position, role, server⟩ := n
  cases role <;> simp [target?, Node.kind, Node.tag?, Role.kind, Role.tag?]

/-! ## Rules -/

theorem all_nonEmpty? (xs : List String) (test : List String → Bool) :
    (nonEmpty? xs).all test = (xs.isEmpty || test xs) := by
  cases xs <;> simp [nonEmpty?]

theorem any_nonEmpty? (xs : List String) (test : String → Bool) :
    (nonEmpty? xs).any (fun ys => ys.any test) = xs.any test := by
  cases xs <;> simp [nonEmpty?]

theorem getD_nonEmpty? (xs : List String) : (nonEmpty? xs).getD [] = xs := by
  cases xs <;> rfl

variable [Rule.Patterns]

/-- A rule accepts what its predicates match. -/
theorem rule_accepts (p : Predicates) (t : Target) (s : Rule.Subject) :
    (rule p t).accepts s = Rule.predicatesMatch p s := by
  have hinbound : ((p.inboundTag?.map fun tag => [tag]).all fun tags =>
      tags.contains s.inboundTag) = Rule.absentOr p.inboundTag? (· == s.inboundTag) := by
    cases p.inboundTag? with
    | none => rfl
    | some tag => simp [Rule.absentOr, Bool.beq_eq_decide_eq, eq_comm (a := s.inboundTag)]
  rw [Rule.predicatesMatch_eq]
  simp only [Document.Rule.accepts, rule, hinbound, all_nonEmpty?, any_nonEmpty?,
    Rule.categoriesHold, Rule.domainHolds, Rule.absentOr]

/-- Of the rules of one node the first accepts, or none. -/
theorem find?_rules (p : Predicates) (s : Rule.Subject) (ts : List Target) :
    (ts.map (rule p)).find? (·.accepts s) =
      if Rule.predicatesMatch p s then ts.head?.map (rule p) else none := by
  have hall : (fun r : Document.Rule => r.accepts s) ∘ rule p =
      fun _ => Rule.predicatesMatch p s := funext fun t => rule_accepts p t s
  rw [List.find?_map, hall]
  cases ts with
  | nil => simp
  | cons t ts => cases Rule.predicatesMatch p s <;> simp

/-- Predicates that only ask for an inbound match what comes in there, and everything if
the tag is blank. -/
theorem predicatesMatch_inbound (tag : String) (s : Rule.Subject) :
    Rule.predicatesMatch (.ofInbound tag) s = (Text.nonBlank? tag).all (· == s.inboundTag) := by
  rw [Rule.predicatesMatch_eq, Rule.categoriesHold]
  simp [Rule.absentOr, Predicates.ofInbound, Predicates.none, Predicates.port?,
    Predicates.network?, Predicates.inboundTag?]

theorem predicatesMatch_ofInbound {tag : String} (hblank : Text.blank tag = false)
    (htrim : Text.trim tag = tag) (s : Rule.Subject) :
    Rule.predicatesMatch (.ofInbound tag) s = (tag == s.inboundTag) := by
  rw [predicatesMatch_inbound, Text.nonBlank?_self hblank htrim, Option.all_some]

end Compile
end ProxyPlan
