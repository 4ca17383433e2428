/-
ProxyPlan.Proofs.TopologyFormat — topologies and client graphs keep what is
written of them.

Every part of a topology is a record of texts, names, whole numbers, lists and
smaller parts, and is kept whatever it holds: what is left out when a part is
written is just what its absence means when it is read. The one exception are
the coordinates of nodes, which are binary numbers and are not read to the last
bit. A whole coordinate is written in tenths and divided by ten when it is read
(`Number.Binary64.reread`), so a graph is read as the same graph with its nodes
at the places that are read of them (`Topology.ofText_reread`). These are the
same places if five times each coordinate has no more than 53 bits, and for many
others too.
-/
import ProxyPlan.Proofs.DocumentFormat
import ProxyPlan.Proofs.TaggedLaw
import ProxyPlan.Proofs.Vocabulary
import ProxyPlan.Proofs.WholeNumber
import ProxyPlan.Topology.Reading

namespace ProxyPlan

open Json Json.Codec

/-! ## Edges -/

theorem Transport.keeps (t : Transport) : Transport.codec.Keeps 3 t :=
  keeps_record (by decide) rfl <|
    .defaulting (keeps_naming _ (Network.find?_name _)) <|
    .defaulting (keeps_naming _ (Security.find?_name _)) <|
    .optional (present_record _ _ _ _) (fun s _ => (Ws.keeps s).mono (by decide)) <|
    .optional (present_record _ _ _ _) (fun s _ => (Grpc.keeps s).mono (by decide)) <|
    .optional (present_record _ _ _ _) (fun s _ => (Xhttp.keeps s).mono (by decide)) <|
    .optional (present_record _ _ _ _) (fun s _ => Tls.keeps s) <|
    .optional (present_record _ _ _ _) (fun s _ => Reality.keeps s) trivial

theorem EdgeData.keeps (d : EdgeData) : EdgeData.codec.Keeps 4 d :=
  keeps_record (by decide) rfl <|
    .optional present_word32 (fun _ _ => keeps_word32 _ _) <|
    .optional present_text (fun _ _ => keeps_text _ _) <|
    .optional (present_record _ _ _ _) (fun t _ => Transport.keeps t) trivial

theorem Edge.keeps (e : Edge) : Edge.codec.Keeps 5 e :=
  keeps_record (by decide) rfl <|
    .required (keeps_text _ _) <| .required (keeps_text _ _) <| .required (keeps_text _ _) <|
    .defaulting (keeps_naming _ (EdgeStyle.find?_name _)) <|
    .optional (present_record _ _ _ _) (fun d _ => EdgeData.keeps d) trivial

/-! ## Servers -/

theorem Ssh.keeps (s : Ssh) : Ssh.codec.Keeps 1 s :=
  keeps_record (by decide) rfl <|
    .defaulting (keeps_text _ _) <| .defaulting (keeps_word16 _ _) <|
    .optional present_text (fun _ _ => keeps_text _ _) trivial

theorem Server.keeps (s : Server) : Server.codec.Keeps 2 s :=
  keeps_record (by decide) rfl <|
    .required (keeps_text _ _) <| .defaulting (keeps_text _ _) <| .defaulting (keeps_text _ _) <|
    .optional (present_record _ _ _ _) (fun s _ => Ssh.keeps s) trivial

/-! ## Configurations of nodes -/

theorem Device.keeps (c : Device) : Device.codec.Keeps 1 c :=
  keeps_record (by decide) rfl <|
    .defaulting (keeps_text _ _) <| .required (keeps_naming _ (DeviceLink.find?_name _)) trivial

theorem User.keeps (u : User) : User.codec.Keeps 1 u :=
  keeps_record (by decide) rfl <|
    .defaulting (keeps_text _ _) <|
    .optional present_text (fun _ _ => keeps_text _ _) <|
    .optional present_text (fun _ _ => keeps_text _ _) <|
    .optional present_word32 (fun _ _ => keeps_word32 _ _) trivial

theorem Inbound.keeps (c : Inbound) : Inbound.codec.Keeps 4 c :=
  keeps_record (by decide) rfl <|
    .defaulting (keeps_text _ _) <|
    .required (keeps_naming _ (InboundProtocol.find?_name _)) <|
    .defaulting (keeps_text _ _) <|
    .defaulting (keeps_word32 _ _) <|
    .optional present_bool (fun _ _ => keeps_bool _ _) <|
    .items (fun u _ => (User.keeps u).mono (by decide)) <|
    .optional present_text (fun _ _ => keeps_text _ _) <|
    .optional (present_record _ _ _ _) (fun t _ => Transport.keeps t) trivial

/-- The tag of a rule stands among its predicates. -/
theorem Routing.keeps (c : Routing) : Routing.codec.Keeps 2 c := by
  refine KeepsObject.keeps (keepsObject_flattened (by decide) rfl ?_ ?_)
  · exact .defaulting (keeps_text _ _) trivial
  · exact .items (fun _ _ => keeps_text _ _) <|
      .items (fun _ _ => keeps_text _ _) <|
      .optional present_text (fun _ _ => keeps_text _ _) <|
      .items (fun _ _ => keeps_text _ _) <|
      .optional present_text (fun _ _ => keeps_text _ _) <|
      .optional present_text (fun _ _ => keeps_text _ _) trivial

theorem Balancer.keeps (c : Balancer) : Balancer.codec.Keeps 2 c :=
  keeps_record (by decide) rfl <|
    .defaulting (keeps_text _ _) <| .defaulting (keeps_naming _ (Strategy.find?_name _)) <|
    .defaulting (keeps_texts _ _) trivial

theorem Terminal.keeps (c : Terminal) : Terminal.codec.Keeps 1 c :=
  keeps_record (by decide) rfl <|
    .defaulting (keeps_text _ _) <|
    .required (keeps_naming _ (TerminalProtocol.find?_name _)) trivial

theorem Proxy.keeps (c : Proxy) : Proxy.codec.Keeps 4 c :=
  keeps_record (by decide) rfl <|
    .defaulting (keeps_text _ _) <| .required (keeps_naming _ (ProxyProtocol.find?_name _)) <|
    .defaulting (keeps_text _ _) <| .defaulting (keeps_word32 _ _) <|
    .optional present_text (fun _ _ => keeps_text _ _) <|
    .optional present_text (fun _ _ => keeps_text _ _) <|
    .optional present_text (fun _ _ => keeps_text _ _) <|
    .optional (present_record _ _ _ _) (fun t _ => Transport.keeps t) trivial

/-- What a node is, is kept by the format of its own kind. -/
theorem Role.keeps (r : Role) : (Role.codec r.kind).Keeps 4 r := by
  cases r with
  | device c => exact ((Device.keeps c).mono (by decide)).part rfl
  | inbound c => exact (Inbound.keeps c).part rfl
  | routing c => exact ((Routing.keeps c).mono (by decide)).part rfl
  | balancer c => exact ((Balancer.keeps c).mono (by decide)).part rfl
  | terminal c => exact ((Terminal.keeps c).mono (by decide)).part rfl
  | proxy c => exact (Proxy.keeps c).part rfl

namespace Client

theorem LocalPorts.keeps (p : LocalPorts) : LocalPorts.codec.Keeps 1 p :=
  keeps_record (by decide) rfl <|
    .defaulting (keeps_word16 _ _) <|
    .optional present_word16 (fun _ _ => keeps_word16 _ _) trivial

theorem Relay.keeps (c : Relay) : Relay.codec.Keeps 4 c :=
  keeps_record (by decide) rfl <|
    .defaulting (keeps_text _ _) <| .required (keeps_naming _ (ProxyProtocol.find?_name _)) <|
    .defaulting (keeps_text _ _) <| .defaulting (keeps_word32 _ _) <|
    .optional present_text (fun _ _ => keeps_text _ _) <|
    .optional present_text (fun _ _ => keeps_text _ _) <|
    .optional present_text (fun _ _ => keeps_text _ _) <|
    .optional (present_record _ _ _ _) (fun t _ => Transport.keeps t) trivial

theorem keeps_tag (name usual tag : String) : (tagCodec name usual).Keeps 1 tag :=
  keeps_record (by exact List.nodup_singleton _) rfl <| .defaulting (keeps_text _ _) trivial

theorem Role.keeps (r : Role) : (Role.codec r.kind).Keeps 4 r := by
  cases r with
  | user ports => exact ((LocalPorts.keeps ports).mono (by decide)).part rfl
  | server relay => exact (Relay.keeps relay).part rfl
  | internet tag => exact ((keeps_tag _ _ tag).mono (by decide)).part rfl
  | block tag => exact ((keeps_tag _ _ tag).mono (by decide)).part rfl
  | rules c => exact ((Routing.keeps c).mono (by decide)).part rfl

end Client

/-! ## Coordinates -/

namespace Position

/-- Both coordinates are whole numbers below 2^53. -/
structure IsWhole (p : Position) : Prop where
  x : ∃ n < 2 ^ 53, p.x.IsWhole n
  y : ∃ n < 2 ^ 53, p.y.IsWhole n

theorem isWhole_ofInt {i j : Int} (hi : i.natAbs < 2 ^ 53) (hj : j.natAbs < 2 ^ 53) :
    IsWhole ⟨.ofInt i, .ofInt j⟩ where
  x := ⟨_, hi, Number.Binary64.isWhole_ofInt hi⟩
  y := ⟨_, hj, Number.Binary64.isWhole_ofInt hj⟩

/-- Both coordinates are whole numbers of few bits. -/
structure IsShortWhole (p : Position) : Prop where
  x : ∃ n, p.x.IsShortWhole n
  y : ∃ n, p.y.IsShortWhole n

theorem IsShortWhole.isWhole {p : Position} (h : p.IsShortWhole) : p.IsWhole := by
  obtain ⟨m, hx⟩ := h.x
  obtain ⟨n, hy⟩ := h.y
  exact ⟨⟨m, hx.lt, hx.whole⟩, ⟨n, hy.lt, hy.whole⟩⟩

/-- Small integers are whole numbers of few bits. -/
theorem isShortWhole_ofInt {i j : Int} (hi : 5 * i.natAbs < 2 ^ 53) (hj : 5 * j.natAbs < 2 ^ 53) :
    IsShortWhole ⟨.ofInt i, .ofInt j⟩ where
  x := ⟨_, (Number.Binary64.isWhole_ofInt (by omega)).isShortWhole hi⟩
  y := ⟨_, (Number.Binary64.isWhole_ofInt (by omega)).isShortWhole hj⟩

theorem isShortWhole_origin : origin.IsShortWhole := by
  have hzero : Number.Binary64.zero.IsWhole 0 := by
    rw [Number.Binary64.IsWhole, Nat.zero_mul]
    rfl
  exact ⟨⟨0, hzero.isShortWhole (by decide)⟩, ⟨0, hzero.isShortWhole (by decide)⟩⟩

/-- A place as it is read once it has been written. -/
def reread (p : Position) : Position := ⟨p.x.reread, p.y.reread⟩

theorem IsShortWhole.reread_eq {p : Position} (h : p.IsShortWhole) : p.reread = p := by
  obtain ⟨_, hx⟩ := h.x
  obtain ⟨_, hy⟩ := h.y
  rw [reread, hx.reread_eq, hy.reread_eq]

/-- What has been read stays as it is, whatever the coordinates. -/
theorem returns (p : Position) : Position.codec.Returns 1 p := by
  refine ReturnsObject.returns (returnsObject_record (by decide) rfl ?_)
  exact .required (returns_real _ _) <| .required (returns_real _ _) trivial

theorem write_eq (p : Position) : Position.codec.write p =
    .object [("x", .number (.real p.x)), ("y", .number (.real p.y))] := rfl

theorem readsAs {p : Position} (h : p.IsWhole) :
    (Position.codec.write p).ReadsAs (Position.codec.write p.reread) := by
  obtain ⟨_, hltx, hx⟩ := h.x
  obtain ⟨_, hlty, hy⟩ := h.y
  rw [write_eq, write_eq]
  exact .field (.number (hx.readsAs hltx)) <| .field (.number (hy.readsAs hlty)) <|
    Plain.readsAs (Json.plain_nil rfl)

end Position

/-! ## Nodes -/

namespace Placed

variable {Role : Type}

/-- Something placed, at the place that is read of it. -/
def reread (n : Placed Role) : Placed Role := { n with position := n.position.reread }

theorem map_reread_eq_iff {ns : List (Placed Role)} :
    ns.map reread = ns ↔ ∀ n ∈ ns, n.position.reread = n.position := by
  have hone : ∀ n : Placed Role, n.reread = n ↔ n.position.reread = n.position := by
    rintro ⟨id, position, role, server⟩
    simp [reread]
  have hid : ns.map reread = ns ↔ ns.map reread = ns.map fun n => n := by rw [List.map_id']
  rw [hid, List.map_inj_left]
  exact forall₂_congr fun n _ => hone n

/-- None of the fields of something placed is called like the one for the kind. -/
theorem notMem_write {role : Codec Role} {n : Placed Role} {fields : List (String × Json)}
    (h : (body role).write n = .object fields) : "nodeType" ∉ fields.map Prod.fst := by
  obtain rfl := Json.object.inj h
  intro hmem
  have hname : "nodeType" ∈ ["id", "position", "data", "serverId"] :=
    (Fields.write_names _ _).subset hmem
  exact absurd hname (by decide)

theorem returnsObject {role : Codec Role} {n : Placed Role} (hrole : role.Keeps 4 n.role) :
    ∃ fields, (body role).ReturnsObject 4 n fields := by
  have hnames : ["id", "position", "data", "serverId"].Nodup := by decide
  exact ⟨_, returnsObject_record (by exact hnames) rfl <| .required (keeps_text _ _).returns <|
    .defaulting ((Position.returns _).mono (by decide)) <| .required hrole.returns <|
    Fields.Keeps.returns <| .optional present_text (fun _ _ => keeps_text _ _) trivial⟩

/-- The server of something placed as a field. -/
def serverField (n : Placed Role) : List (String × Json) :=
  n.server.toList.map fun s => ("serverId", .text s)

section Tagged

variable {κ : Type} {name : String} {kinds : Naming κ} {kindOf : Placed Role → κ}
  {role : κ → Codec Role} {n : Placed Role}

/-- The fields of something placed, with its kind before them. -/
theorem write_tagged : (Codec.tagged name "nodeType" kinds kindOf fun k => body (role k)).write n =
    .object (("nodeType", .text (kinds.name (kindOf n))) :: ("id", .text n.id) ::
      ("position", Position.codec.write n.position) ::
      ("data", (role (kindOf n)).write n.role) :: n.serverField) := by
  obtain ⟨id, position, inner, server⟩ := n
  cases server <;> rfl

/-- Of something placed only the place may be read as another one. -/
theorem readsAs_moved {room : Nat} {p : Position} (hrole : (role (kindOf n)).Keeps room n.role)
    (hkind : ∀ p, kindOf { n with position := p } = kindOf n)
    (h : (Position.codec.write n.position).ReadsAs (Position.codec.write p)) :
    ((Codec.tagged name "nodeType" kinds kindOf fun k => body (role k)).write n).ReadsAs
      ((Codec.tagged name "nodeType" kinds kindOf fun k => body (role k)).write
        { n with position := p }) := by
  have hserver : (Json.object n.serverField).Plain := by
    refine Json.plain_nil ?_
    unfold serverField
    cases n.server <;> rfl
  rw [write_tagged, write_tagged, hkind p]
  exact .field (Plain.readsAs (Json.plain_nil rfl)) <|
    .field (Plain.readsAs (Json.plain_nil rfl)) <| .field h <|
    .field hrole.plain.readsAs hserver.readsAs

end Tagged

end Placed

/-- A node is read out of the value that is written for it wherever it stands. -/
theorem Node.returns (n : Node) : Node.codec.Returns 5 n := by
  obtain ⟨_, hbody⟩ := Placed.returnsObject (Role.keeps n.role)
  exact (hbody.tagged (Kind.find?_name _) (Placed.notMem_write hbody.writes)).returns

theorem Node.readsAs {n : Node} (h : n.position.IsWhole) :
    (Node.codec.write n).ReadsAs (Node.codec.write n.reread) := by
  rw [Placed.reread]
  exact Placed.readsAs_moved (Role.keeps n.role) (fun _ => rfl) (Position.readsAs h)

theorem Client.Node.returns (n : Client.Node) : Client.Node.codec.Returns 5 n := by
  obtain ⟨_, hbody⟩ := Placed.returnsObject (Client.Role.keeps n.role)
  exact (hbody.tagged (Client.Kind.find?_name _) (Placed.notMem_write hbody.writes)).returns

theorem Client.Node.readsAs {n : Client.Node} (h : n.position.IsWhole) :
    (Client.Node.codec.write n).ReadsAs (Client.Node.codec.write n.reread) := by
  rw [Placed.reread]
  exact Placed.readsAs_moved (Client.Role.keeps n.role) (fun _ => rfl) (Position.readsAs h)

/-! ## Graphs -/

/-- Nodes are read at the places that are read of them. -/
theorem readsAs_nodes {Role : Type} {c : Codec (Placed Role)} {ns : List (Placed Role)}
    (h : ∀ n ∈ ns, (c.write n).ReadsAs (c.write n.reread)) :
    ((Codec.list c).write ns).ReadsAs ((Codec.list c).write (ns.map Placed.reread)) := by
  show (Json.list (ns.map c.write)).ReadsAs (.list ((ns.map Placed.reread).map c.write))
  rw [List.map_map]
  exact .list h

theorem keeps_edges (edges : List Edge) : (Codec.list Edge.codec).Keeps 6 edges :=
  .list fun e _ => Edge.keeps e

theorem keeps_servers (servers : List Server) : (Codec.list Server.codec).Keeps 6 servers :=
  .list fun s _ => (Server.keeps s).mono (by decide)

theorem returns_nodes (nodes : List Node) : (Codec.list Node.codec).Returns 6 nodes :=
  .list fun n _ => Node.returns n

namespace Topology

/-- A topology with its nodes at the places that are read of them. -/
def reread (t : Topology) : Topology := { t with nodes := t.nodes.map Placed.reread }

theorem reread_eq_iff {t : Topology} :
    t.reread = t ↔ ∀ n ∈ t.nodes, n.position.reread = n.position := by
  obtain ⟨nodes, edges, servers⟩ := t
  simp only [reread, mk.injEq, and_true, Placed.map_reread_eq_iff]

theorem reread_eq {t : Topology} (h : ∀ n ∈ t.nodes, n.position.IsShortWhole) : t.reread = t :=
  reread_eq_iff.mpr fun n hn => (h n hn).reread_eq

theorem returns (t : Topology) : Topology.codec.Returns 7 t :=
  ReturnsObject.returns <| returnsObject_record (by decide) rfl <|
    .defaulting (returns_nodes _) <| .defaulting (keeps_edges _).returns <|
    .defaulting (keeps_servers _).returns trivial

variable {t : Topology} (h : ∀ n ∈ t.nodes, n.position.IsWhole)

include h

theorem readsAs : (Topology.codec.write t).ReadsAs (Topology.codec.write t.reread) :=
  .field (readsAs_nodes fun n hn => Node.readsAs (h n hn)) <|
    .field (keeps_edges _).plain.readsAs <| .field (keeps_servers _).plain.readsAs <|
    Plain.readsAs (Json.plain_nil rfl)

/-- A written topology is read with its nodes at the places that are read of them, in either
layout. -/
theorem ofText_reread : Topology.ofText (Topology.codec.write t).toText = .ok t.reread ∧
    Topology.ofText (Topology.codec.write t).toLines = .ok t.reread := by
  obtain ⟨htext, hlines⟩ := t.reread.returns.readText_readsAs (readsAs h) (by decide) (by nofun)
  rw [Topology.ofText, Topology.ofText, htext, hlines]
  exact ⟨rfl, rfl⟩

omit h in
/-- A topology whose nodes have not been moved is read as it was written. -/
theorem ofText_unmoved (hplaced : ∀ n ∈ t.nodes, n.position = .origin) :
    Topology.ofText (Topology.codec.write t).toText = .ok t := by
  have hshort : ∀ n ∈ t.nodes, n.position.IsShortWhole := fun n hn =>
    hplaced n hn ▸ Position.isShortWhole_origin
  obtain ⟨htext, -⟩ := ofText_reread fun n hn => (hshort n hn).isWhole
  rw [htext, reread_eq hshort]

end Topology

namespace Client.Graph

/-- A client graph with its nodes at the places that are read of them. -/
def reread (g : Graph) : Graph := { g with nodes := g.nodes.map Placed.reread }

theorem reread_eq_iff {g : Graph} :
    g.reread = g ↔ ∀ n ∈ g.nodes, n.position.reread = n.position := by
  obtain ⟨nodes, edges⟩ := g
  simp only [reread, mk.injEq, and_true, Placed.map_reread_eq_iff]

theorem reread_eq {g : Graph} (h : ∀ n ∈ g.nodes, n.position.IsShortWhole) : g.reread = g :=
  reread_eq_iff.mpr fun n hn => (h n hn).reread_eq

theorem returns (g : Graph) : Graph.codec.Returns 7 g :=
  ReturnsObject.returns <| returnsObject_record (by decide) rfl <|
    .defaulting (.list fun n _ => Node.returns n) <| .defaulting (keeps_edges _).returns trivial

variable {g : Graph} (h : ∀ n ∈ g.nodes, n.position.IsWhole)

include h

theorem readsAs : (Graph.codec.write g).ReadsAs (Graph.codec.write g.reread) :=
  .field (readsAs_nodes fun n hn => Node.readsAs (h n hn)) <|
    .field (keeps_edges _).plain.readsAs <| Plain.readsAs (Json.plain_nil rfl)

theorem ofText_reread : Graph.ofText (Graph.codec.write g).toText = .ok g.reread ∧
    Graph.ofText (Graph.codec.write g).toLines = .ok g.reread := by
  obtain ⟨htext, hlines⟩ := g.reread.returns.readText_readsAs (readsAs h) (by decide) (by nofun)
  rw [Graph.ofText, Graph.ofText, htext, hlines]
  exact ⟨rfl, rfl⟩

omit h in
theorem ofText_unmoved (hplaced : ∀ n ∈ g.nodes, n.position = .origin) :
    Graph.ofText (Graph.codec.write g).toText = .ok g := by
  have hshort : ∀ n ∈ g.nodes, n.position.IsShortWhole := fun n hn =>
    hplaced n hn ▸ Position.isShortWhole_origin
  obtain ⟨htext, -⟩ := ofText_reread fun n hn => (hshort n hn).isWhole
  rw [htext, reread_eq hshort]

end Client.Graph

/-! ## Texts -/

/-- A topology, and likewise a client graph, whose nodes stand on whole coordinates is read from
the text that is written for it, compact or over several lines. Everything in it is as it was but
the coordinates, each of which is read as ten times it over ten. It is the same graph just if
these are the same, as they are if five times each of them has no more than 53 bits. -/
theorem ofText_written :
    (∀ t : Topology, (∀ n ∈ t.nodes, n.position.IsWhole) →
      Topology.ofText (Topology.codec.write t).toText = .ok t.reread ∧
      Topology.ofText (Topology.codec.write t).toLines = .ok t.reread ∧
      (t.reread = t ↔ ∀ n ∈ t.nodes, n.position.reread = n.position) ∧
      ((∀ n ∈ t.nodes, n.position.IsShortWhole) → t.reread = t)) ∧
    ∀ g : Client.Graph, (∀ n ∈ g.nodes, n.position.IsWhole) →
      Client.Graph.ofText (Client.Graph.codec.write g).toText = .ok g.reread ∧
      Client.Graph.ofText (Client.Graph.codec.write g).toLines = .ok g.reread ∧
      (g.reread = g ↔ ∀ n ∈ g.nodes, n.position.reread = n.position) ∧
      ((∀ n ∈ g.nodes, n.position.IsShortWhole) → g.reread = g) := by
  refine ⟨fun t ht => ?_, fun g hg => ?_⟩
  · obtain ⟨htext, hlines⟩ := Topology.ofText_reread ht
    exact ⟨htext, hlines, Topology.reread_eq_iff, Topology.reread_eq⟩
  · obtain ⟨htext, hlines⟩ := Client.Graph.ofText_reread hg
    exact ⟨htext, hlines, Client.Graph.reread_eq_iff, Client.Graph.reread_eq⟩

/-- A topology of one device. -/
def Topology.lone (p : Position) : Topology :=
  ⟨[⟨"d", p, .device ⟨"", .socks⟩, none⟩], [], []⟩

theorem Topology.forall_lone {P : Position → Prop} {p : Position} (h : P p) :
    ∀ n ∈ (lone p).nodes, P n.position := by
  intro n hn
  obtain rfl := List.mem_singleton.mp hn
  exact h

/-- A client graph of one rule. -/
def Client.Graph.lone (p : Position) : Client.Graph :=
  ⟨[⟨"r", p, .rules ⟨"work", .ofInbound "office"⟩, some "s"⟩], []⟩

theorem Client.Graph.forall_lone {P : Position → Prop} {p : Position} (h : P p) :
    ∀ n ∈ (lone p).nodes, P n.position := by
  intro n hn
  obtain rfl := List.mem_singleton.mp hn
  exact h

/-- A place whose first coordinate is no number of few bits. -/
def Position.odd : Position := ⟨.ofInt (2 ^ 51 + 1), .ofInt (-120)⟩

/-- Ten times its first coordinate is no number of the format, but the quotient is the
coordinate. -/
theorem ofText_written_lone :
    Position.odd.IsWhole ∧
      Topology.ofText (Topology.codec.write (.lone .odd)).toText = .ok (.lone .odd) ∧
      Client.Graph.ofText (Client.Graph.codec.write (.lone .odd)).toText = .ok (.lone .odd) := by
  have hwhole : Position.odd.IsWhole := Position.isWhole_ofInt (by decide) (by decide)
  have hsame : Position.odd.reread = .odd := by decide +kernel
  obtain ⟨htext, -, hiff, -⟩ := ofText_written.1 _ (Topology.forall_lone hwhole)
  obtain ⟨hclient, -, hclientIff, -⟩ := ofText_written.2 _ (Client.Graph.forall_lone hwhole)
  rw [hiff.mpr (Topology.forall_lone (P := fun p => p.reread = p) hsame)] at htext
  rw [hclientIff.mpr (Client.Graph.forall_lone (P := fun p => p.reread = p) hsame)] at hclient
  exact ⟨hwhole, htext, hclient⟩

/-- From some number on not all whole coordinates are read back: the tenfold of
this one is no number of the format, and a quarter is added when it is divided. -/
theorem ofText_lone_far :
    ∃ t : Topology, (∀ n ∈ t.nodes, n.position.IsWhole) ∧
      Topology.ofText (Topology.codec.write t).toText ≠ .ok t := by
  have hp : Position.IsWhole ⟨.ofInt 1801439850948199, .ofInt 0⟩ :=
    Position.isWhole_ofInt (by decide) (by decide)
  have hother : (Topology.ofText (Topology.codec.write
      (.lone ⟨.ofInt 1801439850948199, .ofInt 0⟩)).toText).toOption ≠
      some (.lone ⟨.ofInt 1801439850948199, .ofInt 0⟩) := by decide +kernel
  exact ⟨_, Topology.forall_lone hp, fun hread => hother (congrArg Except.toOption hread)⟩

end ProxyPlan
