/-
ProxyPlan.Proofs.DirectRules — the rules of inbounds that lead straight to a target.

A link from an inbound straight to an outbound or a balancer becomes a rule that asks for
the inbound and for nothing else. The rules stand in the order of the links, one for each
(`directRules_eq_map`).

The inbound itself is declared under its tag as it is written. The rule is made of
predicates, and these read the tag as they read every category: trimmed, and absent if it
is blank. So the rule asks for the inbound it was made for just when something stands in
the tag and no white space at its ends (`binds_iff`). With white space there the rule asks
for an inbound that is not declared, and without a tag it asks for none and catches what
comes in anywhere (`direct_astray`).
-/
import Mathlib.Data.List.Forall2
import ProxyPlan.Compile.Basic
import ProxyPlan.Proofs.Growth
import ProxyPlan.Proofs.RuleMeaning

namespace ProxyPlan.Compile

variable {whole : Graph} {g : Group}

/-! ## Links and their rules -/

/-- The links from inbounds straight to targets, each with what its inbound is declared
as, in the order of the nodes. -/
def directLinks (whole : Graph) (g : Group) : List (Document.Inbound × Target) :=
  g.nodes.flatMap fun n =>
    (inboundOf? whole n).toList.flatMap fun i => (targetsOf g.graph n.id).map (Prod.mk i)

/-- The inbound of a link is declared in the document of the group. -/
theorem declared_of_mem_directLinks {link : Document.Inbound × Target}
    (h : link ∈ directLinks whole g) : link.1 ∈ g.nodes.filterMap (inboundOf? whole) := by
  obtain ⟨n, hn, h⟩ := List.mem_flatMap.mp h
  obtain ⟨i, hi, h⟩ := List.mem_flatMap.mp h
  obtain ⟨t, -, rfl⟩ := List.mem_map.mp h
  exact List.mem_filterMap.mpr ⟨n, hn, Option.mem_toList.mp hi⟩

/-- Each link has a rule, made of the tag that its inbound is declared under. -/
theorem directRules_eq_map (whole : Graph) (g : Group) :
    directRules g.graph =
      (directLinks whole g).map fun link => rule (.ofInbound link.1.tag) link.2 := by
  rw [directRules_eq, directLinks, List.map_flatMap]
  refine List.flatMap_congr fun n _ => ?_
  obtain ⟨id, position, role, server⟩ := n
  cases role with
  | inbound c => simp [directRulesOf, Node.inbound?, inboundOf?, inbound]
  | device | routing | balancer | terminal | proxy => rfl

/-! ## What the rules accept -/

section

variable [Rule.Patterns]

/-- The rule names the inbound, and accepts what comes in there and nothing else. -/
def Binds (r : Document.Rule) (i : Document.Inbound) : Prop :=
  r.inboundTag = some [i.tag] ∧ ∀ s, r.accepts s = true ↔ s.inboundTag = i.tag

/-- A rule for an inbound accepts what comes in under the trimmed tag, or everything if
nothing is left of it. -/
theorem accepts_ofInbound {tag : String} {t : Target} {s : Rule.Subject} :
    (rule (.ofInbound tag) t).accepts s = true ↔
      Text.blank tag = true ∨ s.inboundTag = Text.trim tag := by
  rw [rule_accepts, predicatesMatch_inbound, Text.nonBlank?]
  cases Text.blank tag <;> simp [eq_comm (a := s.inboundTag)]

/-- The rule of a link binds its inbound just when trimming changes nothing and leaves
something. -/
theorem binds_iff {i : Document.Inbound} {t : Target} :
    Binds (rule (.ofInbound i.tag) t) i ↔ Text.Tight i.tag := by
  constructor
  · rintro ⟨htag, -⟩
    have hnamed : (Text.nonBlank? i.tag).map (fun tag => [tag]) = some [i.tag] := htag
    exact Text.nonBlank?_eq_some.mp (by simpa using hnamed)
  · rintro htight
    refine ⟨?_, fun s => ?_⟩
    · show (Text.nonBlank? i.tag).map (fun tag => [tag]) = _
      rw [htight.nonBlank?, Option.map_some]
    · rw [accepts_ofInbound, htight.1, htight.2]
      simp

/-- In the document of a group the links from inbounds straight to targets have a rule
each, in their order and after all other rules. It leads where the link leads. It binds
the inbound of the link just when the tag that the inbound is declared under is not blank
and has no white space at its ends; in any case it accepts what comes in under the trimmed
tag, and what comes in anywhere if the tag is blank. -/
theorem direct_binds (whole : Graph) (servers : List Server) (o : Options) (g : Group) :
    directRules g.graph <:+ (document whole servers o g).routing.rules ∧
      List.Forall₂
        (fun link r =>
          link.1 ∈ (document whole servers o g).inbounds ∧
          r.outboundTag = link.2.outbound? ∧ r.balancerTag = link.2.balancer? ∧
          (Binds r link.1 ↔ Text.Tight link.1.tag) ∧
          ∀ s, r.accepts s = true ↔
            Text.blank link.1.tag = true ∨ s.inboundTag = Text.trim link.1.tag)
        (directLinks whole g) (directRules g.graph) := by
  refine ⟨List.suffix_append _ _, ?_⟩
  rw [directRules_eq_map whole, List.forall₂_map_right_iff, List.forall₂_same]
  intro link hlink
  exact ⟨declared_of_mem_directLinks hlink, rfl, rfl, binds_iff, fun s => accepts_ofInbound⟩

end

/-- Two inbounds that lead straight to one outbound, the first without a tag and the
second with white space around it. -/
def unnamed : Topology where
  nodes := [
    ⟨"a", .origin, .inbound ⟨"", .socks, "", 1080, none, [], none, none⟩, none⟩,
    ⟨"b", .origin, .inbound ⟨" office ", .socks, "", 1081, none, [], none, none⟩, none⟩,
    ⟨"exit", .origin, .terminal ⟨"exit", .freedom⟩, none⟩]
  edges := [⟨"e", "a", "exit", .plain, none⟩, ⟨"f", "b", "exit", .plain, none⟩]
  servers := []

attribute [local instance] Rule.Patterns.empty

/-- The rule of the first inbound names no inbound and accepts what comes in at the second;
the rule of the second names another one and does not accept it. -/
theorem direct_astray :
    (unnamed.compile .usual).map (fun out => out.document.inbounds.map Document.Inbound.tag) =
      [["", " office "]] ∧
    (unnamed.compile .usual).map (fun out =>
      out.document.routing.rules.map fun r => (r.inboundTag, r.outboundTag)) =
      [[(none, some "exit"), (some ["office"], some "exit")]] ∧
    (unnamed.compile .usual).map (fun out =>
      out.document.routing.rules.map fun r =>
        r.accepts ⟨"example.com", "tcp", 443, " office "⟩) =
      [[true, false]] := by
  refine ⟨?_, ?_, ?_⟩ <;> decide +kernel

end ProxyPlan.Compile
