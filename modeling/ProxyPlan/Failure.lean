/-
ProxyPlan.Failure — why a text was refused.

Only reading can fail; whatever has been read can be checked, compiled and
traced. A failure is its cause; the code, the wording and the node it is about
are read off the cause.
-/
import ProxyPlan.Json.Codec

namespace ProxyPlan

open Json (Codec Fault)

/-- Reading a graph, or taking over somebody else's document. -/
inductive Phase where
  | reading
  | importing
deriving DecidableEq

/-- The name of a phase. -/
def Phase.name : Phase → String
  | .reading => "Parse"
  | .importing => "Import"

/-- What is wrong with a project file. -/
inductive ProjectFault where
  | noNodes
  | badSection (name : String) (fault : Fault)
deriving DecidableEq

/-- The wording of what is wrong with a project file. -/
def ProjectFault.message : ProjectFault → String
  | .noNodes => "missing `nodes`"
  | .badSection name fault => "`" ++ name ++ "`: " ++ fault.message

/-- Why a text was refused. -/
inductive Failure where
  | topology (fault : Fault) (node : Option String)
  | clientGraph (fault : Fault) (node : Option String)
  | configuration (fault : Fault)
  | notAnObject
  | noSections
  | project (fault : ProjectFault)
deriving DecidableEq

namespace Failure

/-- The code of a failure. -/
def code : Failure → String
  | .topology _ _ => "P001"
  | .clientGraph _ _ => "P002"
  | .configuration _ => "I001"
  | .notAnObject => "I002"
  | .noSections => "I003"
  | .project _ => "I004"

/-- The phase in which a failure arises. -/
def phase : Failure → Phase
  | .topology _ _ | .clientGraph _ _ => .reading
  | _ => .importing

/-- The wording of a failure. -/
def message : Failure → String
  | .topology fault _ => "Failed to parse topology JSON: " ++ fault.message
  | .clientGraph fault _ => "Failed to parse simple-mode graph JSON: " ++ fault.message
  | .configuration fault => "Failed to parse configuration JSON: " ++ fault.message
  | .notAnObject => "Configuration must be a JSON object"
  | .noSections => "Configuration has neither an `inbounds` nor an `outbounds` section"
  | .project fault => "Invalid project file: " ++ fault.message

/-- The node a failure is about. -/
def node? : Failure → Option String
  | .topology _ node => node
  | .clientGraph _ node => node
  | _ => none

/-- A failure on one line. -/
def display (f : Failure) : String :=
  let line := "[" ++ f.phase.name ++ ":" ++ f.code ++ "] " ++ f.message
  match f.node? with
  | some id => line ++ " (node '" ++ id ++ "')"
  | none => line

end Failure

/-- A value without a good reading. -/
def isUnreadable {α : Type} (c : Codec α) (v : Json) : Bool :=
  match c.readValue v with
  | .ok _ => false
  | .error _ => true

/-- The identity of the first entry of `nodes` that does not read as one, in a
text that is well formed otherwise. -/
def firstBadNode? {α : Type} (c : Codec α) (text : String) : Option String :=
  match Codec.anything.readText text with
  | .error _ => none
  | .ok doc => do
    let entries ← (← doc.get? "nodes").items?
    let entry ← entries.find? (isUnreadable c)
    (← entry.get? "id").text?

end ProxyPlan
