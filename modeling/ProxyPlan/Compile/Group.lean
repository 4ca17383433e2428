/-
ProxyPlan.Compile.Group — a topology cut into the parts that become documents.

There is one group for every server that nodes are assigned to, and one for
the nodes without a server. Only edges inside a group belong to it. Every
group has a file name of its own, made from the name of its server.
-/
import ProxyPlan.Graph.Basic
import ProxyPlan.Text.Ascii
import ProxyPlan.Topology.Basic

namespace ProxyPlan.Compile

/-- The nodes and edges that become one document. -/
structure Group where
  filename : String
  server : Option String
  nodes : List Node
  edges : List Edge

/-- The graph of a group by itself. -/
def Group.graph (g : Group) : Graph := ⟨g.nodes, g.edges⟩

/-! ## File names -/

/-- The file when no node is assigned to a server. -/
def soleFile : String := "config.json"

/-- The runs of letters and digits of a name, in lower case, joined by hyphens. -/
def slug (name : String) : String :=
  let words := (Text.splitBy (fun c => !Text.isAlphanumeric c) name.toList).filter fun w => !w.isEmpty
  String.ofList ((['-'].intercalate words).map Text.lowerChar)

/-- A file name, and the beginning of names that stand in for it. -/
structure FileName where
  stem : String
deriving DecidableEq

/-- The name in full. -/
def FileName.full (f : FileName) : String := f.stem ++ ".json"

/-- The name that stands in for one that is taken, counted from two. -/
def FileName.numbered (f : FileName) (n : Nat) : FileName := ⟨f.stem ++ "-" ++ toString n⟩

/-- The name of a group before other groups are looked at. -/
def baseName (servers : List Server) : Option String → FileName
  | none => ⟨"config-unassigned"⟩
  | some id =>
    let name := ((servers.find? fun s => s.id == id).map fun s => slug s.name).getD ""
    ⟨"config-" ++ (if name.isEmpty then slug id else name)⟩

/-- A name that is not taken: the given one, or the first numbered one. Of more
numbered names than there are taken ones, one is free. -/
def freshName (taken : List FileName) (f : FileName) : FileName :=
  if taken.contains f then
    let numbered := (List.range (taken.length + 1)).map fun i => f.numbered (i + 2)
    (numbered.find? fun g => !taken.contains g).getD f
  else f

/-! ## Groups -/

/-- The groups in order: servers as they are listed, then other servers as
they are first named by a node, then no server. -/
def groupOrder (nodes : List Node) (servers : List Server) : List (Option String) :=
  let listed := servers.map Server.id
  let named := Order.firsts listed (nodes.filterMap Node.group)
  (listed ++ named).map some ++ [none]

/-- The group of an identity; of several nodes the last one counts. -/
def groupOf? (nodes : List Node) (id : String) : Option (Option String) :=
  (nodes.reverse.find? fun n => n.id == id).map Node.group

/-- The members of a group. -/
def members (nodes : List Node) (key : Option String) : List Node :=
  nodes.filter fun n => Node.group n = key

/-- The edges inside a group. -/
def innerEdges (nodes : List Node) (edges : List Edge) (key : Option String) : List Edge :=
  edges.filter fun e => groupOf? nodes e.source = some key && groupOf? nodes e.target = some key

/-- The groups of the given keys, those without members left out. -/
def groupsOf (nodes : List Node) (edges : List Edge) (servers : List Server) :
    (taken : List FileName) → List (Option String) → List Group
  | _, [] => []
  | taken, key :: keys =>
    let ms := members nodes key
    if ms.isEmpty then groupsOf nodes edges servers taken keys
    else
      let name := freshName taken (baseName servers key)
      ⟨name.full, key, ms, innerEdges nodes edges key⟩ ::
        groupsOf nodes edges servers (name :: taken) keys

/-- Cut a topology into groups. -/
def groups (t : Topology) : List Group :=
  if t.nodes.all fun n => (Node.group n).isNone then
    let known := fun id => t.nodes.any fun n => n.id == id
    [⟨soleFile, none, t.nodes, t.edges.filter fun e => known e.source && known e.target⟩]
  else groupsOf t.nodes t.edges t.servers [] (groupOrder t.nodes t.servers)

end ProxyPlan.Compile
