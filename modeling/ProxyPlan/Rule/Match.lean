/-
ProxyPlan.Rule.Match — what the predicates of a rule mean for a request.

Every category that is present must hold, and within a category one entry is
enough. No name is resolved to an address: an address category counts as
satisfied when the domain category of the same rule is, and never on its own.
-/
import ProxyPlan.Rule.Domain
import ProxyPlan.Rule.Port
import ProxyPlan.Topology.Predicates

namespace ProxyPlan.Rule

/-- What a rule is asked about. -/
structure Subject where
  domain : String
  protocol : String
  port : UInt16
  /-- The tag of the inbound the request has come in through. -/
  inboundTag : String
deriving DecidableEq

/-- One of the networks in a list joined by commas is the protocol. -/
def networkMatches (network protocol : String) : Bool :=
  (Text.split ',' network).any fun n => Text.sameIgnoringCase (Text.trim n) protocol

/-- Some selector is the beginning of the tag; a blank one selects nothing. -/
def selectorMatches (selector : List String) (tag : String) : Bool :=
  selector.any fun s =>
    match Text.nonBlank? s with
    | some start => Text.startsWith start tag
    | none => false

variable [Patterns]

/-- The domain category is present and holds. -/
def domainHolds (p : Predicates) (s : Subject) : Bool :=
  p.domain.any fun rule => matchesDomain rule s.domain

/-- A category that is absent, or holds. -/
def absentOr {α : Type} (category : Option α) (holds : α → Bool) : Bool :=
  category.all holds

/-- Every category that is present holds. -/
def categoriesHold (p : Predicates) (s : Subject) : Bool :=
  absentOr p.inboundTag? (· == s.inboundTag) &&
    (p.domain.isEmpty || domainHolds p s) &&
    (p.ip.isEmpty || domainHolds p s) &&
    absentOr p.port? (matchesPort · s.port) &&
    (p.protocol.isEmpty ||
      p.protocol.any fun name => Text.sameIgnoringCase (Text.trim name) s.protocol) &&
    absentOr p.network? (networkMatches · s.protocol)

/-- A rule without any category matches everything; any other matches when its
categories hold. -/
def predicatesMatch (p : Predicates) (s : Subject) : Bool :=
  p.isCatchAll || categoriesHold p s

end ProxyPlan.Rule
