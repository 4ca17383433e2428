/-
ProxyPlan.Project.Basic — a topology kept in a file, with its name and dates.

A file of the editor is opened leniently where nothing can be lost: a missing
name, version, mode or date is filled in, and a section that is missing or
null is empty. A section that does not read is an error.
-/
import ProxyPlan.Import.Basic
import ProxyPlan.Topology.Basic

namespace ProxyPlan

open Json (Codec Fields)

/-- When a project was made and changed. -/
structure Project.Dates where
  created : String
  updated : String
deriving DecidableEq

/-- A topology with its name and dates. -/
structure Project where
  version : String
  name : String
  mode : Mode
  servers : List Server
  nodes : List Node
  edges : List Edge
  dates : Project.Dates
deriving DecidableEq

namespace Project

/-- The format of the dates. -/
def Dates.codec : Codec Dates :=
  .record "ProjectMetadata" (.defaulting "createdAt" .text "" <| .defaulting "updatedAt" .text "" .done)
    (fun (created, updated, ()) => ⟨created, updated⟩) fun d => (d.created, d.updated, ())

/-- A project as a value. -/
def toJson (p : Project) : Json :=
  .object [("version", .text p.version), ("name", .text p.name),
    ("mode", Mode.naming.codec.write p.mode),
    ("servers", (Codec.list Server.codec).write p.servers),
    ("nodes", (Codec.list Node.codec).write p.nodes),
    ("edges", (Codec.list Edge.codec).write p.edges),
    ("metadata", Dates.codec.write p.dates)]

/-- The topology of a project. -/
def topology (p : Project) : Topology := ⟨p.nodes, p.edges, p.servers⟩

/-! ## Opening -/

/-- The version of a file that states none. -/
def usualVersion : String := "1.0"

/-- The name of a project that has none. -/
def usualName : String := "Imported Project"

/-- A text of a file, trimmed, or one that stands in for it. -/
def textOr (doc : Json) (name fallback : String) : String :=
  (((doc.get? name).bind Json.text?).bind Text.nonBlank?).getD fallback

/-- A part of a file, with a value for its absence. -/
def part {α : Type} (c : Codec α) (doc : Json) (name : String) (absent : α) : Except Failure α :=
  match (doc.get? name).getD .null with
  | .null => .ok absent
  | v => (c.readValue v).mapError fun fault => .project (.badSection name fault)

/-- The mode that a file states, if it states one. -/
def statedMode? (doc : Json) : Option Mode :=
  ((doc.get? "mode").bind Json.text?).bind Mode.naming.find?

/-- A project never updated was last changed when it was made. -/
def Dates.filled (d : Dates) : Dates :=
  if d.updated = "" then { d with updated := d.created } else d

/-- The project that an object describes. -/
def ofObject (doc : Json) : Except Failure Project := do
  if (doc.get? "nodes").isNone then .error (.project .noNodes)
  else
    let nodes ← part (.list Node.codec) doc "nodes" []
    let dates ← part Dates.codec doc "metadata" ⟨"", ""⟩
    let servers ← part (.list Server.codec) doc "servers" []
    let edges ← part (.list Edge.codec) doc "edges" []
    return {
      version := textOr doc "version" usualVersion
      name := textOr doc "name" usualName
      mode := (statedMode? doc).getD (Topology.modeOf nodes)
      servers := servers
      nodes := nodes
      edges := edges
      dates := dates.filled }

/-- Open a project file. -/
def ofText (text : String) : Except Failure Project := do
  ofObject (← Import.objectOf text)

end Project
end ProxyPlan
