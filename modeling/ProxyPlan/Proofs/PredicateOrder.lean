/-
ProxyPlan.Proofs.PredicateOrder — what changing the predicates of a rule does to what it matches.

Within a category one entry is enough, and all categories that are present must hold. So a further
entry in a category that has some can only let more requests through (`Predicates.Widened`), and a
category that was absent can only hold requests back once it is set (`Predicates.Narrowed`). Both
are shown for one change, and from that for any number of changes of one kind.

The exception is by design. Addresses are not looked up, so a category of addresses takes its
answer from the domains of the same rule. Without domains it never holds, and setting the domains
of a rule that asks for addresses may let requests through; that is no narrowing.
-/
import Mathlib.Logic.Relation
import ProxyPlan.Proofs.RuleMeaning

namespace ProxyPlan

namespace Predicates

/-- One more entry stands in a category that has some. -/
inductive Widened : Predicates → Predicates → Prop
  | domain {p : Predicates} (h : p.domain ≠ []) (entry : String) :
    Widened p { p with domain := p.domain ++ [entry] }
  | ip {p : Predicates} (h : p.ip ≠ []) (entry : String) :
    Widened p { p with ip := p.ip ++ [entry] }
  | protocol {p : Predicates} (h : p.protocol ≠ []) (entry : String) :
    Widened p { p with protocol := p.protocol ++ [entry] }

/-- A category is set that was absent: any but the domains of a rule that asks for addresses. -/
inductive Narrowed : Predicates → Predicates → Prop
  | port {p : Predicates} (h : p.port? = .none) (spec : String) :
    Narrowed p { p with port := some spec }
  | network {p : Predicates} (h : p.network? = .none) (network : String) :
    Narrowed p { p with network := some network }
  | inboundTag {p : Predicates} (h : p.inboundTag? = .none) (tag : String) :
    Narrowed p { p with inboundTag := some tag }
  | protocol {p : Predicates} (h : p.protocol = []) (entries : List String) :
    Narrowed p { p with protocol := entries }
  | ip {p : Predicates} (h : p.ip = []) (entries : List String) :
    Narrowed p { p with ip := entries }
  | domain {p : Predicates} (h : p.domain = []) (hip : p.ip = []) (entries : List String) :
    Narrowed p { p with domain := entries }

end Predicates

namespace Rule

variable {p q : Predicates} {s : Subject}

theorem absentOr_iff {α : Type} {category : Option α} {holds : α → Bool} :
    absentOr category holds = true ↔ ∀ a, category = some a → holds a = true :=
  Option.all_eq_true _ _

section

variable [Patterns]

theorem domainHolds_iff :
    domainHolds p s = true ↔ ∃ rule ∈ p.domain, matchesDomain rule s.domain = true :=
  List.any_eq_true

/-- Category by category, what predicates ask of a request. -/
theorem predicatesMatch_iff : predicatesMatch p s = true ↔
    (∀ tag, p.inboundTag? = some tag → tag = s.inboundTag) ∧
    (p.domain ≠ [] → domainHolds p s = true) ∧ (p.ip ≠ [] → domainHolds p s = true) ∧
    (∀ spec, p.port? = some spec → matchesPort spec s.port = true) ∧
    (p.protocol ≠ [] →
      ∃ name ∈ p.protocol, Text.sameIgnoringCase (Text.trim name) s.protocol = true) ∧
    ∀ network, p.network? = some network → networkMatches network s.protocol = true := by
  simp only [predicatesMatch_eq, categoriesHold, Bool.and_eq_true, Bool.or_eq_true, absentOr_iff,
    beq_iff_eq, List.isEmpty_iff, List.any_eq_true, and_assoc, or_iff_not_imp_left, Ne]

/-- Addresses alone match nothing. -/
theorem not_predicatesMatch_of_ip (hip : p.ip ≠ []) (hdomain : p.domain = []) :
    predicatesMatch p s = false := by
  rw [Bool.eq_false_iff]
  intro h
  obtain ⟨-, -, haddresses, -⟩ := predicatesMatch_iff.mp h
  obtain ⟨rule, hrule, -⟩ := domainHolds_iff.mp (haddresses hip)
  rw [hdomain] at hrule
  cases hrule

/-- One more entry holds nothing back. -/
theorem predicatesMatch_of_widened (hpq : p.Widened q) (h : predicatesMatch p s = true) :
    predicatesMatch q s = true := by
  rw [predicatesMatch_iff] at h ⊢
  obtain ⟨hinbound, hdomain, hip, hport, hprotocol, hnetwork⟩ := h
  cases hpq with
  | domain hsome entry =>
    obtain ⟨rule, hrule, hmatches⟩ := domainHolds_iff.mp (hdomain hsome)
    have hmore : domainHolds { p with domain := p.domain ++ [entry] } s = true :=
      domainHolds_iff.mpr ⟨rule, List.mem_append_left _ hrule, hmatches⟩
    exact ⟨hinbound, fun _ => hmore, fun _ => hmore, hport, hprotocol, hnetwork⟩
  | ip hsome entry =>
    exact ⟨hinbound, hdomain, fun _ => hip hsome, hport, hprotocol, hnetwork⟩
  | protocol hsome entry =>
    obtain ⟨name, hname, hsame⟩ := hprotocol hsome
    exact ⟨hinbound, hdomain, hip, hport, fun _ => ⟨name, List.mem_append_left _ hname, hsame⟩,
      hnetwork⟩

/-- What a category lets through that was absent, is let through without it. -/
theorem predicatesMatch_of_narrowed (hpq : p.Narrowed q) (h : predicatesMatch q s = true) :
    predicatesMatch p s = true := by
  have hnone : ∀ {category : Option String} {holds : String → Prop}, category = none →
      ∀ a, category = some a → holds a := by
    rintro category holds rfl a ha
    cases ha
  rw [predicatesMatch_iff] at h ⊢
  obtain ⟨hinbound, hdomain, hip, hport, hprotocol, hnetwork⟩ := h
  cases hpq with
  | port habsent spec => exact ⟨hinbound, hdomain, hip, hnone habsent, hprotocol, hnetwork⟩
  | network habsent network => exact ⟨hinbound, hdomain, hip, hport, hprotocol, hnone habsent⟩
  | inboundTag habsent tag => exact ⟨hnone habsent, hdomain, hip, hport, hprotocol, hnetwork⟩
  | protocol habsent entries =>
    exact ⟨hinbound, hdomain, hip, hport, fun h => absurd habsent h, hnetwork⟩
  | ip habsent entries =>
    exact ⟨hinbound, hdomain, fun h => absurd habsent h, hport, hprotocol, hnetwork⟩
  | domain habsent hnoIp entries =>
    exact ⟨hinbound, fun h => absurd habsent h, fun h => absurd hnoIp h, hport, hprotocol,
      hnetwork⟩

/-- More entries in categories that have some hold nothing back, setting categories that were
absent lets nothing further through, addresses without domains match nothing, and a rule without
any category is no special case. -/
theorem predicatesMatch_order (s : Subject) :
    (∀ p q, Relation.ReflTransGen Predicates.Widened p q →
      predicatesMatch p s = true → predicatesMatch q s = true) ∧
    (∀ p q, Relation.ReflTransGen Predicates.Narrowed p q →
      predicatesMatch q s = true → predicatesMatch p s = true) ∧
    (∀ p, p.ip ≠ [] → p.domain = [] → predicatesMatch p s = false) ∧
    ∀ p, predicatesMatch p s = categoriesHold p s := by
  refine ⟨?widened, ?narrowed, fun p => not_predicatesMatch_of_ip, fun p => predicatesMatch_eq p s⟩
  case widened =>
    intro p q hpq h
    induction hpq with
    | refl => exact h
    | tail _ hstep ih => exact predicatesMatch_of_widened hstep ih
  case narrowed =>
    intro p q hpq h
    induction hpq with
    | refl => exact h
    | tail _ hstep ih => exact ih (predicatesMatch_of_narrowed hstep h)

end

/-- A request for a name of `a.example`. -/
def exampleSubject : Subject := ⟨"www.a.example", "tcp", 443, "in"⟩

/-- Domains are asked for, and names of protocols. -/
def namedPredicates : Predicates :=
  { Predicates.none with domain := ["a.example"], protocol := ["tcp"] }

attribute [local instance] Patterns.empty

theorem predicatesMatch_order_named :
    predicatesMatch { namedPredicates with
      domain := ["a.example", "b.example"], protocol := ["tcp", "udp"] } exampleSubject = true ∧
    predicatesMatch { Predicates.none with domain := ["a.example"] } exampleSubject = true ∧
    predicatesMatch { Predicates.none with ip := ["10.0.0.0/8"] } exampleSubject = false := by
  obtain ⟨hwidened, hnarrowed, hip, -⟩ := predicatesMatch_order exampleSubject
  refine ⟨hwidened namedPredicates _ ?_ (by decide +kernel),
    hnarrowed _ { namedPredicates with port := some "80-443" } ?_ (by decide +kernel),
    hip _ (by decide) rfl⟩
  · exact .tail (.single (.domain (by decide) "b.example")) (.protocol (by decide) "udp")
  · exact .tail (.single (.protocol rfl ["tcp"])) (.port rfl "80-443")

/-- Setting the domains of a rule that asks for addresses may let a request through. -/
example : predicatesMatch
      { Predicates.none with ip := ["10.0.0.0/8"] } exampleSubject = false ∧
    predicatesMatch { Predicates.none with
      ip := ["10.0.0.0/8"], domain := ["a.example"] } exampleSubject = true := by
  decide +kernel

end Rule
end ProxyPlan
