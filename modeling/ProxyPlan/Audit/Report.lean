/-
ProxyPlan.Audit.Report — the check of a whole graph.

A check never fails. Its report sorts what was found by weight and keeps the
order of the checks in each weight; the graph is valid if there are no errors.
-/
import ProxyPlan.Audit.Structure
import ProxyPlan.Rule.Match

namespace ProxyPlan.Audit

/-! ## Names in configurations -/

/-- Rules for inbounds that do not exist. -/
def unknownInbounds (nodes : List Node) (n : Node) : List Issue :=
  match n.role with
  | .routing c =>
    match c.predicates.inboundTag? with
    | some tag =>
      let known := nodes.filterMap fun m => (Node.inbound? m).map Inbound.tag
      when (!known.contains tag) (.atNode n.id (.unknownInbound c.tag tag))
    | none => []
  | _ => []

/-- Selectors that pick no outbound. -/
def idleSelectors (nodes : List Node) (n : Node) : List Issue :=
  match n.role with
  | .balancer c =>
    let outbounds := (nodes.filter fun m => (Node.kind m).isOutbound).filterMap Node.tag?
    (c.selector.filter fun s => !Text.blank s).flatMap fun s =>
      when (!outbounds.any (Rule.selectorMatches [s])) (.atNode n.id (.idleSelector c.tag s))
  | _ => []

/-- Checks of the names that nodes use for each other. -/
def referenceIssues (nodes : List Node) : List Issue :=
  nodes.flatMap fun n => unknownInbounds nodes n ++ idleSelectors nodes n

/-! ## Reports -/

/-- What was found, by weight. -/
structure Report where
  errors : List Issue
  warnings : List Issue
  infos : List Issue
deriving DecidableEq

namespace Report

/-- Sort issues by weight. -/
def ofIssues (issues : List Issue) : Report where
  errors := issues.filter fun i => i.level = .error
  warnings := issues.filter fun i => i.level = .warning
  infos := issues.filter fun i => i.level = .info

/-- There are no errors. -/
def isValid (r : Report) : Bool := r.errors.isEmpty

/-- All issues, by weight. -/
def all (r : Report) : List Issue := r.errors ++ r.warnings ++ r.infos

/-- Some issue has a code. -/
def hasCode (r : Report) (code : String) : Bool := r.all.any fun i => i.code == code

/-- The issues shown at a node. -/
def forNode (r : Report) (id : String) : List Issue := r.all.filter fun i => i.node = some id

end Report

/-! ## Written form -/

/-- A field that is left out when it has no value. -/
def optionalText (name : String) (value : Option String) : List (String × Json) :=
  value.toList.map fun s => (name, .text s)

/-- An issue as a value. -/
def Issue.toJson (i : Issue) : Json :=
  .object ([("level", .text i.level.name), ("code", .text i.code)] ++
    optionalText "nodeId" i.node ++ optionalText "edgeId" i.edge ++
    [("message", .text i.finding.message)])

/-- Issues as a value. -/
def issuesJson (issues : List Issue) : Json := .list (issues.map Issue.toJson)

/-- A report as a value. -/
def Report.toJson (r : Report) : Json :=
  .object [("valid", .bool r.isValid), ("errors", issuesJson r.errors),
    ("warnings", issuesJson r.warnings), ("infos", issuesJson r.infos)]

/-- Everything that can be found in a graph, in the order of the checks. -/
def issues (g : Graph) : List Issue :=
  g.nodes.flatMap nodeIssues ++ transportsBetweenGroups g ++ structureIssues g ++
    referenceIssues g.nodes

/-- Check a graph. -/
def check (g : Graph) : Report := .ofIssues (issues g)

end ProxyPlan.Audit
