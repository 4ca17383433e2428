/-
ProxyPlan.Proofs.LiftedRules — rules that have been made of predicates, taken over again.

Making a rule of predicates trims their texts and leaves out what is blank or empty; taking the
rule over puts empty lists back, and asks for the one inbound that such a rule lists. What comes
out are the trimmed predicates (`predicatesOf_rule`). They are not those that the rule was made of,
but they match the same requests (`predicatesMatch_trimmed`), and making a rule of them gives the
same rule (`rule_predicatesOf`).

The rule is taken over whenever an outbound or a balancer with the tag of its target is there, and
left out with a remark otherwise. New nodes of rules are no targets, so among the rules of a list
this does not depend on the rules before.
-/
import ProxyPlan.Proofs.DocumentFormat
import ProxyPlan.Proofs.Draft
import ProxyPlan.Proofs.RuleMeaning

namespace ProxyPlan

/-! ## Trimmed predicates -/

namespace Predicates

/-- The predicates with their texts trimmed, and blank ones left out. -/
def trimmed (p : Predicates) : Predicates :=
  { p with port := p.port?, network := p.network?, inboundTag := p.inboundTag? }

theorem bind_nonBlank?_again (s : Option String) :
    (s.bind Text.nonBlank?).bind Text.nonBlank? = s.bind Text.nonBlank? := by
  cases hs : s.bind Text.nonBlank? with
  | none => rfl
  | some t =>
    obtain ⟨_, -, ht⟩ := Option.bind_eq_some_iff.mp hs
    exact Text.nonBlank?_of_nonBlank? ht

@[simp] theorem trimmed_port? (p : Predicates) : p.trimmed.port? = p.port? :=
  bind_nonBlank?_again p.port

@[simp] theorem trimmed_network? (p : Predicates) : p.trimmed.network? = p.network? :=
  bind_nonBlank?_again p.network

@[simp] theorem trimmed_inboundTag? (p : Predicates) : p.trimmed.inboundTag? = p.inboundTag? :=
  bind_nonBlank?_again p.inboundTag

end Predicates

/-- White space around the texts of predicates, and blank texts, make no difference. -/
theorem Rule.predicatesMatch_trimmed [Rule.Patterns] (p : Predicates) (s : Rule.Subject) :
    Rule.predicatesMatch p.trimmed s = Rule.predicatesMatch p s := by
  simp only [Rule.predicatesMatch_eq, Rule.categoriesHold, Predicates.trimmed_port?,
    Predicates.trimmed_network?, Predicates.trimmed_inboundTag?]
  rfl

/-- The tag of a target. -/
def Compile.Target.tag : Target → String
  | .outbound tag => tag
  | .balancer tag => tag

namespace Import

open Compile (Target rule target?)

/-! ## One rule -/

theorem predicatesOf_rule (p : Predicates) (t : Target) : predicatesOf (rule p t) = p.trimmed := by
  have hinbound : ((p.inboundTag?.map fun tag => [tag]).getD []).head? = p.inboundTag? := by
    cases p.inboundTag? <;> rfl
  simp only [predicatesOf, rule, Compile.getD_nonEmpty?, hinbound]
  rfl

/-- Making a rule of the predicates that have been taken over gives the same rule. -/
theorem rule_predicatesOf (p : Predicates) (t : Target) :
    rule (predicatesOf (rule p t)) t = rule p t := by
  rw [predicatesOf_rule]
  simp only [rule, Predicates.trimmed_port?, Predicates.trimmed_network?,
    Predicates.trimmed_inboundTag?]
  rfl

namespace Draft

variable {d : Draft} {p : Predicates} {t : Target}

/-- Some node is the target. -/
def hasTarget (d : Draft) (t : Target) : Bool := d.nodes.any fun n => target? n = some t

theorem hasTarget_iff : d.hasTarget t = true ↔ ∃ n ∈ d.nodes, target? n = some t := by
  simp [hasTarget]

/-- A rule finds its target if some node is this target. -/
theorem target_rule (d : Draft) (number : Nat) (p : Predicates) (t : Target) :
    d.hasTarget t = true ∧ (∃ id, d.target number (rule p t) = .ok id) ∨
      d.hasTarget t = false ∧
        d.target number (rule p t) = .error (.unknownTarget number t.tag) := by
  rw [← Bool.not_eq_true, hasTarget_iff]
  push Not
  cases t with
  | outbound tag =>
    simp only [target, rule, Target.outbound?, Ne, Compile.target?_eq_outbound]
    cases hlatest : d.latest? Kind.isOutbound tag with
    | none => exact .inr ⟨latest?_eq_none.mp hlatest, rfl⟩
    | some id =>
      obtain ⟨n, hn, -, hself⟩ := of_latest? hlatest
      exact .inl ⟨⟨n, hn, hself⟩, id, rfl⟩
  | balancer tag =>
    simp only [target, rule, Target.outbound?, Target.balancer?, Ne, Compile.target?_eq_balancer]
    cases hlatest : d.latest? (· = .balancer) tag with
    | none =>
      refine .inr ⟨fun n hn hself => latest?_eq_none.mp hlatest n hn ?_, rfl⟩
      exact ⟨decide_eq_true hself.1, hself.2⟩
    | some id =>
      obtain ⟨n, hn, -, hkind, htag⟩ := of_latest? hlatest
      exact .inl ⟨⟨n, hn, of_decide_eq_true hkind, htag⟩, id, rfl⟩

/-- A rule whose target is not there is left out. -/
theorem addRule_skipped (index : Nat) (p : Predicates) (h : d.hasTarget t = false) :
    d.addRule true index (rule p t) = d.warn (.unknownTarget (index + 1) t.tag) := by
  obtain ⟨hsome, -⟩ | ⟨-, herror⟩ := target_rule d (index + 1) p t
  · rw [h] at hsome
    cases hsome
  · rw [addRule, herror]

theorem readValue_rule (p : Predicates) (t : Target) :
    Document.Rule.codec.readValue (Document.Rule.codec.write (rule p t)).settle = .ok (rule p t) :=
  (Document.Rule.keeps rfl).readValue

section

variable [Rule.Patterns]

/-- The node asks for the same as the predicates. -/
def AsksSame (p : Predicates) (n : Node) : Prop :=
  ∃ c, n.routing? = some c ∧ ∀ s, Rule.predicatesMatch c.predicates s = Rule.predicatesMatch p s

/-- A rule whose target is there becomes a node. -/
theorem addRule_lifted (index : Nat) (p : Predicates) (h : d.hasTarget t = true) :
    ∃ n, (d.addRule true index (rule p t)).nodes = d.nodes ++ [n] ∧
      (d.addRule true index (rule p t)).rules = d.rules + 1 ∧ AsksSame p n := by
  obtain ⟨-, id, hid⟩ | ⟨hnone, -⟩ := target_rule d (index + 1) p t
  · rw [addRule, hid]
    let said := d.unknownInbounds (index + 1) ((rule p t).inboundTag.getD [])
    obtain ⟨into, out, hled, -⟩ := lead_spec
      { d with rules := d.rules + 1, warnings := d.warnings ++ said } index (rule p t)
      (d.sources ((rule p t).inboundTag.getD [])) id
    refine ⟨d.next (.routing ⟨ruleTag (index + 1) (rule p t), predicatesOf (rule p t)⟩),
      congrArg Draft.nodes hled, congrArg Draft.rules hled, _, rfl, fun s => ?_⟩
    rw [predicatesOf_rule, Rule.predicatesMatch_trimmed]
  · rw [h] at hnone
    cases hnone

/-! ## Rules one after another -/

/-- New nodes of rules are no targets. -/
theorem hasTarget_of_nodes {d' : Draft} {n : Node} (h : d'.nodes = d.nodes ++ [n])
    (hsame : AsksSame p n) : d'.hasTarget = d.hasTarget := by
  obtain ⟨c, hc, -⟩ := hsame
  have hnone : target? n = none := by rw [target?, Node.routing?_eq_some.mp hc]
  funext t
  simp [hasTarget, h, hnone]

/-- The nodes that the rules of a list become ask for the same as the predicates that the rules
have been made of, in order; only rules without a target are left out. -/
theorem addAll_lifted (rules : List (Predicates × Target)) (index : Nat) (d : Draft) :
    ∃ ns, (addAll Document.Rule.codec .rules (addRule true) index
        (rules.map fun x => (Document.Rule.codec.write (rule x.1 x.2)).settle) d).nodes =
          d.nodes ++ ns ∧
      List.Forall₂ (fun x n => AsksSame x.1 n) (rules.filter fun x => d.hasTarget x.2) ns := by
  induction rules generalizing index d with
  | nil => exact ⟨[], (List.append_nil _).symm, .nil⟩
  | cons x rest ih =>
    simp only [List.map_cons, addAll, readValue_rule, List.filter_cons]
    cases htarget : d.hasTarget x.2 with
    | true =>
      obtain ⟨n, hnodes, -, hsame⟩ := addRule_lifted index x.1 htarget
      obtain ⟨ns, hns, hall⟩ := ih (index + 1) (d.addRule true index (rule x.1 x.2))
      rw [hasTarget_of_nodes hnodes hsame] at hall
      refine ⟨n :: ns, ?_, .cons hsame hall⟩
      rw [hns, hnodes, List.append_assoc, List.singleton_append]
    | false =>
      rw [addRule_skipped index x.1 htarget]
      exact ih (index + 1) (d.warn (.unknownTarget (index + 1) x.2.tag))

/-- A rule that has been made of predicates, written and read, is taken over as a node that matches
the requests that the predicates match, or is left out because its target is not there. -/
theorem addRule_meaning (d : Draft) (index : Nat) (p : Predicates) (t : Target) :
    Document.Rule.codec.readValue (Document.Rule.codec.write (rule p t)).settle = .ok (rule p t) ∧
    (d.hasTarget t = true → ∃ n c, (d.addRule true index (rule p t)).nodes = d.nodes ++ [n] ∧
      (d.addRule true index (rule p t)).rules = d.rules + 1 ∧ n.routing? = some c ∧
      ∀ s, Rule.predicatesMatch c.predicates s = Rule.predicatesMatch p s) ∧
    (d.hasTarget t = false →
      d.addRule true index (rule p t) = d.warn (.unknownTarget (index + 1) t.tag)) := by
  refine ⟨readValue_rule p t, fun hthere => ?_, addRule_skipped index p⟩
  obtain ⟨n, hnodes, hcount, c, hc, hsame⟩ := addRule_lifted index p hthere
  exact ⟨n, c, hnodes, hcount, hc, hsame⟩

end

/-- One way out, and nothing else. -/
def oneWayOut : Draft := empty.add (.terminal ⟨"direct", .freedom⟩)

/-- Padded, blank and empty categories. -/
def padded : Predicates :=
  ⟨["a.example"], [], some " 80 ,443", [], some " ", some " in "⟩

attribute [local instance] Rule.Patterns.empty

theorem addRule_meaning_padded :
    (∃ n c, (oneWayOut.addRule true 4 (rule padded (.outbound "direct"))).nodes =
        oneWayOut.nodes ++ [n] ∧
      (oneWayOut.addRule true 4 (rule padded (.outbound "direct"))).rules = oneWayOut.rules + 1 ∧
      n.routing? = some c ∧
      ∀ s, Rule.predicatesMatch c.predicates s = Rule.predicatesMatch padded s) ∧
    oneWayOut.addRule true 4 (rule padded (.balancer "direct")) =
      oneWayOut.warn (.unknownTarget 5 "direct") := by
  exact ⟨(addRule_meaning oneWayOut 4 padded (.outbound "direct")).2.1 (by decide +kernel),
    (addRule_meaning oneWayOut 4 padded (.balancer "direct")).2.2 (by decide +kernel)⟩

end Draft
end Import
end ProxyPlan
