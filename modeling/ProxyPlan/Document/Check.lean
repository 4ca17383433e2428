/-
ProxyPlan.Document.Check — whether the tags of a document fit together.

A document is never refused for its links; what does not fit is reported, in
the order tags, rules, balancers.
-/
import ProxyPlan.Document.Basic

namespace ProxyPlan.Document

/-- Something that does not fit. Rules are counted from one. -/
inductive Flaw where
  | repeatedTag (tag : String)
  | undeclaredOutbound (rule : Nat) (tag : String)
  | undeclaredBalancer (rule : Nat) (tag : String)
  | noTarget (rule : Nat)
  | emptySelector (balancer : String)
deriving DecidableEq

namespace Flaw

/-- The code of a flaw. -/
def code : Flaw → String
  | .repeatedTag _ => "D001"
  | .undeclaredOutbound _ _ | .undeclaredBalancer _ _ => "D002"
  | .noTarget _ => "D003"
  | .emptySelector _ => "D004"

/-- The wording of a flaw. -/
def message : Flaw → String
  | .repeatedTag tag => "Tag '" ++ tag ++ "' is declared more than once"
  | .undeclaredOutbound rule tag =>
    "Rule #" ++ toString rule ++ " targets undeclared outbound '" ++ tag ++ "'"
  | .undeclaredBalancer rule tag =>
    "Rule #" ++ toString rule ++ " targets undeclared balancer '" ++ tag ++ "'"
  | .noTarget rule => "Rule #" ++ toString rule ++ " has neither outboundTag nor balancerTag"
  | .emptySelector balancer => "Balancer '" ++ balancer ++ "' has an empty selector"

/-- The tag a flaw is about. -/
def tag? : Flaw → Option String
  | .repeatedTag tag | .undeclaredOutbound _ tag | .undeclaredBalancer _ tag
  | .emptySelector tag => some tag
  | .noTarget _ => none

/-- A flaw on one line. -/
def display (f : Flaw) : String :=
  let line := "[" ++ f.code ++ "] " ++ f.message
  match f.tag? with
  | some tag => line ++ " (at '" ++ tag ++ "')"
  | none => line

end Flaw

/-- The members of a list that stand in it, or in `seen`, before. -/
def repeats (seen : List String) : List String → List String
  | [] => []
  | tag :: rest =>
    if seen.contains tag then tag :: repeats seen rest else repeats (tag :: seen) rest

/-- Tags of inbounds and outbounds that are used more than once; an empty tag
declares nothing. -/
def repeatedTags (d : Document) : List Flaw :=
  let tags := d.inbounds.map Inbound.tag ++ d.outbounds.map Outbound.tag
  (repeats [] (tags.filter fun tag => tag ≠ "")).map .repeatedTag

/-- What is wrong with the target of a rule. An outbound is looked at first. -/
def Rule.flaw? (outbounds balancers : List String) (number : Nat) (r : Rule) : Option Flaw :=
  match r.outboundTag, r.balancerTag with
  | some tag, _ => if outbounds.contains tag then none else some (.undeclaredOutbound number tag)
  | none, some tag =>
    if balancers.contains tag then none else some (.undeclaredBalancer number tag)
  | none, none => some (.noTarget number)

/-- The flaws of rules, counted from `number`. -/
def ruleFlaws (outbounds balancers : List String) (number : Nat) : List Rule → List Flaw
  | [] => []
  | r :: rest =>
    (r.flaw? outbounds balancers number).toList ++
      ruleFlaws outbounds balancers (number + 1) rest

/-- Balancers that can choose nothing. -/
def emptySelectors (d : Document) : List Flaw :=
  (d.routing.balancers.filter fun b => b.selector.isEmpty).map fun b => .emptySelector b.tag

/-- Everything in a document that does not fit. -/
def check (d : Document) : List Flaw :=
  repeatedTags d ++
    ruleFlaws (d.outbounds.map Outbound.tag) (d.routing.balancers.map Balancer.tag) 1
      d.routing.rules ++
    emptySelectors d

end ProxyPlan.Document
