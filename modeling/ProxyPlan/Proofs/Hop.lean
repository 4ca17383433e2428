/-
ProxyPlan.Proofs.Hop — the two ends of a hop agree.

A hop leads from a proxy outbound to an inbound on another server. The two are
compiled into different documents, each from its own side: the outbound looks at
the links that leave it, the inbound at those that enter it, and each of them at
its own node for what no link settles. What they must agree on is how the
connection is carried and where it is made.

Both sides search the same links of the whole graph, those that lead from one
group to another, and take the first that has what they look for. So if the hop
is the only one that has it (`Graph.IsSole`), both find the hop, in whatever
order the links are tried and whatever the nodes hold themselves
(`findSome?_of_sole`). A port is cut to sixteen bits on both sides alike.
-/
import ProxyPlan.Proofs.Endpoints
import ProxyPlan.Proofs.Partition

namespace ProxyPlan

/-- Of the edges of a sort that lead from one group to another there is no other. -/
def Graph.IsSole (g : Graph) (sort : Edge → Bool) (e : Edge) : Prop :=
  ∀ e' ∈ g.edges, g.crossesGroups e' = true → sort e' = true → e' = e

instance (g : Graph) (sort : Edge → Bool) (e : Edge) : Decidable (g.IsSole sort e) :=
  inferInstanceAs (Decidable (∀ e' ∈ g.edges, g.crossesGroups e' = true → sort e' = true → e' = e))

/-- The edge leaves the node and carries a transport. -/
def Edge.carriesFrom (id : String) (e : Edge) : Bool := e.source == id && e.transport?.isSome

/-- The edge enters the node and carries a transport. -/
def Edge.carriesTo (id : String) (e : Edge) : Bool := e.target == id && e.transport?.isSome

/-- The edge leads from the node to an inbound. -/
def Graph.entersFrom (g : Graph) (id : String) (e : Edge) : Bool :=
  e.source == id && g.kind? e.target = some .inbound

namespace Compile

variable {t : Topology} {e : Edge}

/-! ## What is found over the only link -/

section

variable {g : Graph} {edges : List Edge} {sort : Edge → Bool}

/-- A search among the links to other groups that only edges of one sort can answer is
answered by the only one of them. -/
theorem findSome?_of_sole {β : Type} {f : Edge → Option β} (hedges : ∀ e' ∈ edges, e' ∈ g.edges)
    (hsort : ∀ e' ∈ edges, (f e').isSome = true → sort e' = true) (he : e ∈ edges)
    (hcrosses : g.crossesGroups e = true) (hsole : g.IsSole sort e) :
    (edges.filter g.crossesGroups).findSome? f = f e := by
  refine Order.findSome?_eq_of_unique (List.mem_filter.mpr ⟨he, hcrosses⟩) fun e' he' hne => ?_
  obtain ⟨he', hcrosses'⟩ := List.mem_filter.mp he'
  -- another edge that answers would be of the sort, and there is no other of it
  by_contra hsome
  exact hne (hsole e' (hedges e' he') hcrosses'
    (hsort e' he' (Option.isSome_iff_ne_none.mpr hsome)))

/-- The transport of the only link to another group that carries one comes before that of
the node. -/
theorem choose_of_sole {tr : Transport} (hedges : ∀ e' ∈ edges, e' ∈ g.edges)
    (hsort : ∀ e' ∈ edges, e'.transport?.isSome = true → sort e' = true) (he : e ∈ edges)
    (hcrosses : g.crossesGroups e = true) (hsole : g.IsSole sort e)
    (htransport : e.transport? = some tr) (own : Option Transport) :
    Transport.choose (crossTransports g edges) own = some tr := by
  rw [Transport.choose, crossTransports, List.head?_filterMap,
    findSome?_of_sole hedges hsort he hcrosses hsole, htransport, Option.some_or]

/-- Only inbounds are peers. -/
theorem kind?_of_edgePeer? {servers : List Server} (h : (edgePeer? g servers e).isSome = true) :
    g.kind? e.target = some .inbound := by
  rw [edgePeer?] at h
  cases htarget : g.target? e with
  | none => simp [htarget] at h
  | some n =>
    cases hinbound : n.inbound? with
    | none => simp [htarget, hinbound] at h
    | some c => exact Graph.kind?_eq_some.mpr ⟨n, htarget, Node.kind_of_inbound? hinbound⟩

end

/-! ## Hops -/

/-- The edge leads from a proxy outbound to an inbound of another group. -/
structure Hop (t : Topology) (e : Edge) (p i : Node) (c : Proxy) (d : Inbound) : Prop where
  mem : e ∈ t.edges
  source : t.graph.source? e = some p
  target : t.graph.target? e = some i
  proxy : p.role = .proxy c
  inbound : i.role = .inbound d
  apart : p.group ≠ i.group

section

variable {p i : Node} {c : Proxy} {d : Inbound} (h : Hop t e p i c d)

include h

theorem Hop.crosses : t.graph.crossesGroups e = true := by
  simp [Graph.crossesGroups, h.source, h.target, h.apart]

theorem Hop.mem_outgoing : e ∈ t.graph.outgoing p.id :=
  Graph.mem_outgoing.mpr
    ⟨h.mem, (Graph.node?_id h.source).symm, Graph.isLink_of_crosses h.crosses⟩

theorem Hop.mem_incoming : e ∈ t.graph.incoming i.id :=
  Graph.mem_incoming.mpr
    ⟨h.mem, (Graph.node?_id h.target).symm, Graph.isLink_of_crosses h.crosses⟩

/-- The outbound is carried by the transport of the hop. -/
theorem Hop.proxyStream {tr : Transport} (htransport : e.transport? = some tr)
    (hsole : t.graph.IsSole (Edge.carriesFrom p.id) e) :
    proxyStream t.graph p.id c = Transport.stream? (some tr) := by
  have hchoose := choose_of_sole (fun e' he' => (Graph.mem_outgoing.mp he').1)
    (fun e' he' hsome => by simp [Edge.carriesFrom, (Graph.mem_outgoing.mp he').2.1, hsome])
    h.mem_outgoing h.crosses hsole htransport c.transport
  rw [Compile.proxyStream, hchoose]

/-- The inbound is carried by the transport of the hop. -/
theorem Hop.inboundStream {tr : Transport} (htransport : e.transport? = some tr)
    (hsole : t.graph.IsSole (Edge.carriesTo i.id) e) :
    inboundStream t.graph i.id d = Transport.stream? (some tr) := by
  have hchoose := choose_of_sole (fun e' he' => (Graph.mem_incoming.mp he').1)
    (fun e' he' hsome => by simp [Edge.carriesTo, (Graph.mem_incoming.mp he').2.1, hsome])
    h.mem_incoming h.crosses hsole htransport d.transport
  rw [Compile.inboundStream, hchoose]

/-- The peer of the outbound is the inbound, at the host of its server. -/
theorem Hop.peer? {id : String} {s : Server}
    (hsole : t.graph.IsSole (t.graph.entersFrom p.id) e) (hid : i.server = some id)
    (hserver : t.servers.find? (fun s => s.id == id) = some s)
    (hhost : Text.blank s.host = false) :
    peer? t.graph t.servers p.id = some ⟨Text.trim s.host, d.port⟩ := by
  have hfound := findSome?_of_sole (f := edgePeer? t.graph t.servers)
    (fun e' he' => (Graph.mem_outgoing.mp he').1)
    (fun e' he' hpeer => by
      simp [Graph.entersFrom, (Graph.mem_outgoing.mp he').2.1, kind?_of_edgePeer? hpeer])
    h.mem_outgoing h.crosses hsole
  have hinbound : i.inbound? = some d := Node.inbound?_eq_some.mpr h.inbound
  rw [Compile.peer?, hfound, edgePeer?]
  simp [h.target, hinbound, hid, hserver, Text.nonBlank?, hhost]

end

/-! ## The documents of both ends -/

/-- The document at the place is that of a group with the node. -/
def DocumentAt (t : Topology) (o : Options) (n : Node) (place : Nat) (doc : Document) : Prop :=
  ∃ g, (groups t)[place]? = some g ∧ n ∈ g.nodes ∧
    (t.compile o)[place]?.map Output.document = some doc

theorem DocumentAt.eq {o : Options} {n : Node} {place : Nat} {doc : Document}
    (h : DocumentAt t o n place doc) :
    ∃ g, (groups t)[place]? = some g ∧ n ∈ g.nodes ∧ doc = document t.graph t.servers o g := by
  obtain ⟨g, hg, hn, hdoc⟩ := h
  refine ⟨g, hg, hn, ?_⟩
  rw [Topology.compile, List.getElem?_map, hg] at hdoc
  exact (Option.some.inj hdoc).symm

/-- Every node is in a document. -/
theorem exists_documentAt (hids : (t.nodes.map Placed.id).Nodup) (o : Options) {n : Node}
    (hn : n ∈ t.nodes) : ∃ place doc, DocumentAt t o n place doc := by
  obtain ⟨g, hg, hserver⟩ := exists_group hids hn
  obtain ⟨place, hplace⟩ := List.mem_iff_getElem?.mp hg
  refine ⟨place, document t.graph t.servers o g, g, hplace,
    (mem_nodes_iff hids hg).mpr ⟨hn, hserver.symm⟩, ?_⟩
  rw [Topology.compile, List.getElem?_map, hplace]
  rfl

/-- The nodes of different groups are in different documents. -/
theorem DocumentAt.place_ne (hids : (t.nodes.map Placed.id).Nodup) {o : Options} {n m : Node}
    {place place' : Nat} {doc doc' : Document} (h : DocumentAt t o n place doc)
    (h' : DocumentAt t o m place' doc') (hgroup : n.group ≠ m.group) : place ≠ place' := by
  rintro rfl
  obtain ⟨g, hg, hn, -⟩ := h
  obtain ⟨g', hg', hm, -⟩ := h'
  obtain rfl : g = g' := Option.some.inj (hg.symm.trans hg')
  have hmem : g ∈ groups t := List.mem_of_getElem? hg
  exact hgroup (((mem_nodes_iff hids hmem).mp hn).2.trans ((mem_nodes_iff hids hmem).mp hm).2.symm)

/-- The two ends of a hop are compiled into different documents. -/
theorem hop_compiled {p i : Node} {c : Proxy} {d : Inbound} (h : Hop t e p i c d)
    (hids : (t.nodes.map Placed.id).Nodup) (o : Options) :
    ∃ out entry, outboundOf? t.graph t.servers p = some out ∧
      inboundOf? t.graph i = some entry ∧
      out = proxy c (peer? t.graph t.servers p.id) (proxyStream t.graph p.id c) ∧
      entry = inbound d (inboundStream t.graph i.id d) ∧
      (∃ place doc, DocumentAt t o p place doc) ∧ (∃ place doc, DocumentAt t o i place doc) ∧
      ∀ place place' doc doc', DocumentAt t o p place doc → DocumentAt t o i place' doc' →
        place ≠ place' ∧ out ∈ doc.outbounds ∧ entry ∈ doc'.inbounds := by
  have hout : outboundOf? t.graph t.servers p =
      some (proxy c (peer? t.graph t.servers p.id) (proxyStream t.graph p.id c)) := by
    rw [outboundOf?, h.proxy]
  have hentry : inboundOf? t.graph i = some (inbound d (inboundStream t.graph i.id d)) := by
    rw [inboundOf?, h.inbound]
  refine ⟨_, _, hout, hentry, rfl, rfl, exists_documentAt hids o (Graph.node?_mem h.source),
    exists_documentAt hids o (Graph.node?_mem h.target), ?_⟩
  intro place place' doc doc' hp hi
  refine ⟨hp.place_ne hids hi h.apart, ?_, ?_⟩
  · obtain ⟨g, -, hmem, rfl⟩ := hp.eq
    exact List.mem_filterMap.mpr ⟨p, hmem, hout⟩
  · obtain ⟨g, -, hmem, rfl⟩ := hi.eq
    exact List.mem_filterMap.mpr ⟨i, hmem, hentry⟩

/-- The settings of an outbound name one server, with this address and port. -/
def Dials (protocol : ProxyProtocol) (settings : Json) (address : String) (port : UInt16) :
    Prop :=
  ∃ server, Import.itemsOf (Import.serversField protocol) settings = [server] ∧
    server.get? "address" = some (.text address) ∧
    server.get? "port" = some (.nat port.toNat)

theorem dials_proxySettings (c : Proxy) (address : String) (port : UInt16) :
    Dials c.protocol (proxySettings c address port) address port := by
  rw [Dials, proxySettings]
  cases c.protocol <;> exact ⟨_, rfl, rfl, rfl⟩

/-- The two ends of a hop are compiled into different documents. If the hop is the only
edge on either side with a transport, both are carried by that transport; and if it is
the only hop of an outbound that leaves its address and port open, the outbound dials
the host of the server of the inbound, and the port that the inbound listens on. -/
theorem hop_agrees (hids : (t.nodes.map Placed.id).Nodup) (o : Options) {p i : Node} {c : Proxy}
    {d : Inbound} (h : Hop t e p i c d) :
    ∃ out entry, outboundOf? t.graph t.servers p = some out ∧
      inboundOf? t.graph i = some entry ∧
      (∃ place doc, DocumentAt t o p place doc) ∧ (∃ place doc, DocumentAt t o i place doc) ∧
      (∀ place place' doc doc', DocumentAt t o p place doc → DocumentAt t o i place' doc' →
        place ≠ place' ∧ out ∈ doc.outbounds ∧ entry ∈ doc'.inbounds) ∧
      (∀ tr, e.transport? = some tr → t.graph.IsSole (Edge.carriesFrom p.id) e →
        t.graph.IsSole (Edge.carriesTo i.id) e →
        out.stream = Transport.stream? (some tr) ∧ entry.stream = Transport.stream? (some tr)) ∧
      (∀ id s, t.graph.IsSole (t.graph.entersFrom p.id) e →
        Text.blank c.address = true → c.port = 0 →
        i.server = some id → t.servers.find? (fun s => s.id == id) = some s →
        Text.blank s.host = false →
        Dials c.protocol out.settings (Text.trim s.host) entry.port) := by
  obtain ⟨out, entry, hout, hentry, rfl, rfl, hplace, hplace', hdocuments⟩ := hop_compiled h hids o
  refine ⟨_, _, hout, hentry, hplace, hplace', hdocuments, ?carried, ?dialled⟩
  case carried =>
    intro tr htransport hsoleOut hsoleIn
    exact ⟨h.proxyStream htransport hsoleOut, h.inboundStream htransport hsoleIn⟩
  case dialled =>
    intro id s hsole haddress hport hid hserver hhost
    have hpeer := h.peer? hsole hid hserver hhost
    have hdialAddress : ∀ host, dialAddress c (some ⟨host, d.port⟩) = host := by
      simp [dialAddress, Text.nonBlank?, haddress]
    have hdialPort : ∀ host, dialPort c (some ⟨host, d.port⟩) = portOf d.port := by
      simp [dialPort, hport]
    rw [hpeer, proxy, hdialAddress, hdialPort]
    exact dials_proxySettings c _ (portOf d.port)

/-- A WebSocket protected by TLS. -/
def wsTls : Transport :=
  ⟨.ws, .tls, some ⟨some "/tunnel", none⟩, none, none,
    some ⟨some "exit.example.com", none, none, none⟩, none⟩

/-- The outbound of `tunnelled` on the near server, with a transport of its own. -/
def tunnelOut : Node :=
  ⟨"out", .origin, .proxy ⟨"out", .vless, " ", 0, some "b831381d", none, none,
    some ⟨.grpc, .none, none, none, none, none, none⟩⟩, some "near"⟩

/-- The inbound of `tunnelled` on the far server. -/
def tunnelIn : Node :=
  ⟨"far", .origin, .inbound ⟨"far", .vless, "", 443, none, [], none, none⟩, some "far"⟩

/-- A hop that carries a transport, next to an earlier link into the same inbound and an
earlier link from the same outbound that leads to no inbound. -/
def tunnelled : Topology where
  nodes := [
    ⟨"laptop", .origin, .device ⟨"Laptop", .socks⟩, none⟩,
    tunnelOut, tunnelIn,
    ⟨"direct", .origin, .terminal ⟨"direct", .freedom⟩, some "far"⟩]
  edges := [
    ⟨"a", "laptop", "far", .plain, some ⟨some 1, none, none⟩⟩,
    ⟨"b", "out", "direct", .plain, some ⟨some 1, none, none⟩⟩,
    ⟨"c", "out", "far", .plain, some ⟨none, none, some wsTls⟩⟩]
  servers := [⟨"near", "Near", "192.0.2.1", none⟩, ⟨"far", "Far", " 192.0.2.2", none⟩,
    ⟨"far", "Far", "192.0.2.3", none⟩]

theorem hop_agrees_tunnelled :
    (tunnelled.nodes.map Placed.id).Nodup ∧
      ∃ out entry, outboundOf? tunnelled.graph tunnelled.servers tunnelOut = some out ∧
        inboundOf? tunnelled.graph tunnelIn = some entry ∧
        out.stream = some wsTls.toStream ∧ entry.stream = some wsTls.toStream ∧
        Dials .vless out.settings "192.0.2.2" entry.port := by
  have hids : (tunnelled.nodes.map Placed.id).Nodup := by decide
  have hhop : Hop tunnelled ⟨"c", "out", "far", .plain, some ⟨none, none, some wsTls⟩⟩ tunnelOut
      tunnelIn _ _ :=
    ⟨by decide, by decide, by decide, rfl, rfl, by decide⟩
  obtain ⟨out, entry, hout, hentry, -, -, -, hcarried, hdialled⟩ := hop_agrees hids .usual hhop
  obtain ⟨hstreamOut, hstreamIn⟩ := hcarried wsTls rfl (by decide) (by decide)
  exact ⟨hids, out, entry, hout, hentry, hstreamOut, hstreamIn,
    hdialled "far" ⟨"far", "Far", " 192.0.2.2", none⟩ (by decide) (by decide) rfl rfl rfl
      (by decide)⟩

end Compile
end ProxyPlan
