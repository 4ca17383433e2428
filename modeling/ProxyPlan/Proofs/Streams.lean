/-
ProxyPlan.Proofs.Streams — which transport an endpoint is compiled with.

An inbound takes the first link from another group that carries a transport, a proxy
outbound the first such link to another group, and either its own transport if there is
none (`chosen?`). Each end chooses by itself, and two things follow from that.

  · The ends of a hop need not agree. An inbound has one set of settings for all that
    leads to it, so an outbound whose link is not the first one may speak another
    transport, and so may one that leaves the choice to the nodes (`mixed_apart`). They
    agree if all links into the inbound that carry a transport carry that of the hop,
    and if both nodes bring the same one where none does (`hop_streams`).
  · A check looks at the transports of links only. Of those it lets none pass that pairs
    Reality with a network that does not carry it, so such a pair is compiled just when
    a node brings it and no link replaces it (`reality_streams`, `unguarded_reality`).
-/
import ProxyPlan.Proofs.Hop
import ProxyPlan.Proofs.WellLinked

namespace ProxyPlan

namespace Compile

/-! ## The choice -/

section

variable {g : Graph} {edges : List Edge} {e : Edge} {own : Option Transport}

/-- The links between groups that carry a transport. -/
def carriers (g : Graph) (edges : List Edge) : List Edge :=
  edges.filter fun e => g.crossesGroups e && e.transport?.isSome

theorem mem_carriers : e ∈ carriers g edges ↔
    e ∈ edges ∧ g.crossesGroups e = true ∧ e.transport?.isSome = true := by
  simp [carriers]

theorem head?_crossTransports :
    (crossTransports g edges).head? = (carriers g edges).head?.bind Edge.transport? := by
  induction edges with
  | nil => rfl
  | cons e rest ih =>
    cases hcrosses : g.crossesGroups e with
    | false => simpa [crossTransports, carriers, hcrosses] using ih
    | true =>
      cases htransport : e.transport? with
      | none => simpa [crossTransports, carriers, hcrosses, htransport] using ih
      | some tr => simp [crossTransports, carriers, hcrosses, htransport]

/-- Without a link that carries a transport the node's own is chosen. -/
theorem choose_own (h : carriers g edges = []) :
    Transport.choose (crossTransports g edges) own = own := by
  simp [Transport.choose, head?_crossTransports, h]

/-- The transport of the first link that carries one is chosen. -/
theorem choose_carried {rest : List Edge} (h : carriers g edges = e :: rest) :
    Transport.choose (crossTransports g edges) own = e.transport? := by
  have hcarries : e.transport?.isSome = true := (mem_carriers.mp (h ▸ List.mem_cons_self)).2.2
  obtain ⟨tr, htr⟩ := Option.isSome_iff_exists.mp hcarries
  simp [Transport.choose, head?_crossTransports, h, htr]

/-- If all links that carry a transport carry that of one link between groups, it is
chosen, or the node's own if there is none. -/
theorem choose_same (he : e ∈ edges) (hcrosses : g.crossesGroups e = true)
    (hsame : ∀ e' ∈ carriers g edges, e'.transport? = e.transport?) :
    Transport.choose (crossTransports g edges) own = e.transport?.or own := by
  cases hcarriers : carriers g edges with
  | nil =>
    have hnone : e.transport? = none := by
      by_contra hsome
      have hmem : e ∈ carriers g edges :=
        mem_carriers.mpr ⟨he, hcrosses, Option.isSome_iff_ne_none.mpr hsome⟩
      rw [hcarriers] at hmem
      cases hmem
    rw [choose_own hcarriers, hnone, Option.none_or]
  | cons first rest =>
    have hfirst : first ∈ carriers g edges := hcarriers ▸ List.mem_cons_self
    obtain ⟨tr, htr⟩ := Option.isSome_iff_exists.mp (mem_carriers.mp hfirst).2.2
    rw [choose_carried hcarriers, ← hsame first hfirst, htr, Option.some_or]

end

/-! ## The ends of a hop -/

section

variable {t : Topology} {e : Edge} {p i : Node} {c : Proxy} {d : Inbound}

/-- An outbound with one link only speaks the transport of this link, or its own. -/
theorem Hop.chosen_outbound (h : Hop t e p i c d)
    (honly : ∀ e' ∈ t.edges, e'.source = p.id → e' = e) :
    Transport.choose (crossTransports t.graph (t.graph.outgoing p.id)) c.transport =
      e.transport?.or c.transport := by
  refine choose_same h.mem_outgoing h.crosses ?_
  intro e' he'
  obtain ⟨hmem, hsource, -⟩ := Graph.mem_outgoing.mp (mem_carriers.mp he').1
  rw [honly e' hmem hsource]

/-- Each end of a hop is compiled with a transport of its own choice: an outbound without
other links with that of the hop, else its own; the inbound with that of the first link
from another group that carries one, else its own. Both get the same settings if all of
those links carry what the hop carries, and if both nodes bring the same where the hop
carries nothing. -/
theorem hop_streams (hids : (t.nodes.map Placed.id).Nodup) (o : Options) (h : Hop t e p i c d)
    (honly : ∀ e' ∈ t.edges, e'.source = p.id → e' = e) :
    ∃ out entry, outboundOf? t.graph t.servers p = some out ∧
      inboundOf? t.graph i = some entry ∧
      (∃ place doc, DocumentAt t o p place doc) ∧ (∃ place doc, DocumentAt t o i place doc) ∧
      (∀ place place' doc doc', DocumentAt t o p place doc → DocumentAt t o i place' doc' →
        out ∈ doc.outbounds ∧ entry ∈ doc'.inbounds) ∧
      out.stream = Transport.stream? (e.transport?.or c.transport) ∧
      (∀ first rest, carriers t.graph (t.graph.incoming i.id) = first :: rest →
        entry.stream = Transport.stream? first.transport?) ∧
      (carriers t.graph (t.graph.incoming i.id) = [] →
        entry.stream = Transport.stream? d.transport) ∧
      ((∀ e' ∈ carriers t.graph (t.graph.incoming i.id), e'.transport? = e.transport?) →
        (e.transport? = none → Transport.stream? c.transport = Transport.stream? d.transport) →
        out.stream = entry.stream) := by
  obtain ⟨out, entry, hout, hentry, rfl, rfl, hplace, hplace', hdocuments⟩ := hop_compiled h hids o
  have houtbound : (proxy c (peer? t.graph t.servers p.id) (proxyStream t.graph p.id c)).stream =
      Transport.stream? (e.transport?.or c.transport) := by
    show proxyStream t.graph p.id c = _
    rw [proxyStream, h.chosen_outbound honly]
  refine ⟨_, _, hout, hentry, hplace, hplace', ?documents, houtbound, ?carried, ?own, ?agree⟩
  case documents =>
    intro place place' doc doc' hp hi
    exact (hdocuments place place' doc doc' hp hi).2
  case carried =>
    intro first rest hcarriers
    show inboundStream t.graph i.id d = _
    rw [inboundStream, choose_carried hcarriers]
  case own =>
    intro hcarriers
    show inboundStream t.graph i.id d = _
    rw [inboundStream, choose_own hcarriers]
  case agree =>
    intro hsame hown
    rw [houtbound]
    show _ = inboundStream t.graph i.id d
    rw [inboundStream, choose_same h.mem_incoming h.crosses hsame]
    cases htransport : e.transport? with
    | none => simpa using hown htransport
    | some tr => simp

end

/-- A WebSocket without protection. -/
def wsPlain : Transport := ⟨.ws, .none, some ⟨some "/ws", none⟩, none, none, none, none⟩

/-- A proxy outbound of `mixed`, with or without a transport of its own. -/
def mixedProxy (tag : String) (transport : Option Transport) : Proxy :=
  ⟨tag, .vless, "192.0.2.9", 443, some "b831381d", none, none, transport⟩

/-- An inbound of `mixed`, without a transport of its own. -/
def mixedInbound (tag : String) (port : UInt32) : Inbound :=
  ⟨tag, .vless, "", port, none,
    [⟨"a", some "b831381d-6324-4d53-ad4f-8cda48b30811", none, none⟩], none, none⟩

/-- The node of an outbound of `mixed`, each on its own server. -/
def mixedOut (c : Proxy) : Node := ⟨c.tag, .origin, .proxy c, some c.tag⟩

/-- The node of an inbound of `mixed`, all on one server. -/
def mixedIn (c : Inbound) : Node := ⟨c.tag, .origin, .inbound c, some "hub"⟩

/-- A hop of `mixed`. -/
def mixedHop (source target : String) (priority : Option UInt32) (transport : Option Transport) :
    Edge :=
  ⟨source ++ target, source, target, .plain, some ⟨priority, none, transport⟩⟩

/-- Three hops. Over the first the outbound brings a transport and the inbound none; over
the second and third one inbound is led to with different transports. -/
def mixed : Topology where
  nodes := [
    mixedOut (mixedProxy "alone" (some wsPlain)), mixedIn (mixedInbound "bare" 443),
    mixedOut (mixedProxy "best" none), mixedOut (mixedProxy "other" none),
    mixedIn (mixedInbound "shared" 444),
    ⟨"direct", .origin, .terminal ⟨"direct", .freedom⟩, some "hub"⟩]
  edges := [
    mixedHop "alone" "bare" none none,
    mixedHop "best" "shared" (some 1) (some wsTls),
    mixedHop "other" "shared" none (some wsPlain),
    ⟨"d", "bare", "direct", .plain, none⟩,
    ⟨"e", "shared", "direct", .plain, none⟩]
  servers := []

theorem hop_streams_best :
    (mixed.nodes.map Placed.id).Nodup ∧
      ∃ out entry, outboundOf? mixed.graph [] (mixedOut (mixedProxy "best" none)) = some out ∧
        inboundOf? mixed.graph (mixedIn (mixedInbound "shared" 444)) = some entry ∧
        out.stream = some wsTls.toStream ∧ entry.stream = some wsTls.toStream := by
  have hids : (mixed.nodes.map Placed.id).Nodup := by decide
  have hhop : Hop mixed (mixedHop "best" "shared" (some 1) (some wsTls))
      (mixedOut (mixedProxy "best" none)) (mixedIn (mixedInbound "shared" 444)) _ _ :=
    ⟨by decide, by decide, by decide, rfl, rfl, by decide⟩
  have hcarriers : carriers mixed.graph (mixed.graph.incoming "shared") =
      [mixedHop "best" "shared" (some 1) (some wsTls),
        mixedHop "other" "shared" none (some wsPlain)] := by decide
  obtain ⟨out, entry, hout, hentry, -, -, -, hstream, hcarried, -, -⟩ :=
    hop_streams hids .usual hhop (by decide)
  exact ⟨hids, out, entry, hout, hentry, hstream, hcarried _ _ hcarriers⟩

/-- Nothing is wrong with the graph, but two of its hops have ends that are compiled with
different settings: over the first only one node brings a transport, over the third
another link into the inbound comes first. -/
theorem mixed_apart :
    (mixed.nodes.map Placed.id).Nodup ∧ (Audit.check mixed.graph).isValid = true ∧
      Hop mixed (mixedHop "alone" "bare" none none) (mixedOut (mixedProxy "alone" (some wsPlain)))
        (mixedIn (mixedInbound "bare" 443)) (mixedProxy "alone" (some wsPlain))
        (mixedInbound "bare" 443) ∧
      (∀ e ∈ mixed.edges, e.source = "alone" → e = mixedHop "alone" "bare" none none) ∧
      Hop mixed (mixedHop "other" "shared" none (some wsPlain)) (mixedOut (mixedProxy "other" none))
        (mixedIn (mixedInbound "shared" 444)) (mixedProxy "other" none)
        (mixedInbound "shared" 444) ∧
      (∀ e ∈ mixed.edges, e.source = "other" →
        e = mixedHop "other" "shared" none (some wsPlain)) ∧
      (mixed.compile .usual).flatMap (fun out =>
        out.document.outbounds.map fun x => (x.tag, x.stream)) =
        [("alone", some wsPlain.toStream), ("direct", none), ("best", some wsTls.toStream),
          ("other", some wsPlain.toStream)] ∧
      (mixed.compile .usual).flatMap (fun out =>
        out.document.inbounds.map fun x => (x.tag, x.stream)) =
        [("bare", none), ("shared", some wsTls.toStream)] ∧
      wsPlain.toStream ≠ wsTls.toStream := by
  refine ⟨?_, ?_, ?first, ?_, ?third, ?_, ?_, ?_, ?_⟩
  case first => exact ⟨by decide, by decide, by decide, rfl, rfl, by decide⟩
  case third => exact ⟨by decide, by decide, by decide, rfl, rfl, by decide⟩
  all_goals decide +kernel

end Compile

/-! ## Reality -/

/-- The transport pairs Reality with a network that does not carry it. -/
def Transport.misplacesReality (t : Transport) : Prop :=
  t.security = .reality ∧ t.network ∉ [.raw, .xhttp]

/-- All stream settings of a document. -/
def Document.streams (d : Document) : List Document.Stream :=
  d.inbounds.filterMap Document.Inbound.stream ++ d.outbounds.filterMap Document.Outbound.stream

/-- The settings pair Reality with a network that does not carry it. -/
def Document.Stream.misplacesReality (s : Document.Stream) : Prop :=
  s.security = "reality" ∧ s.network ∉ ["tcp", "xhttp"]

instance (t : Transport) : Decidable t.misplacesReality :=
  inferInstanceAs (Decidable (t.security = .reality ∧ t.network ∉ [.raw, .xhttp]))

instance (s : Document.Stream) : Decidable s.misplacesReality :=
  inferInstanceAs (Decidable (s.security = "reality" ∧ s.network ∉ ["tcp", "xhttp"]))

/-- Compiling a transport neither makes such a pair nor mends it. -/
theorem Transport.misplacesReality_toStream (t : Transport) :
    t.toStream.misplacesReality ↔ t.misplacesReality := by
  have hsecurity : t.security.name = "reality" ↔ t.security = .reality := by
    cases t.security <;> decide
  have hnetwork : t.network.wireName ∉ ["tcp", "xhttp"] ↔ t.network ∉ [.raw, .xhttp] := by
    cases t.network <;> decide
  exact and_congr hsecurity hnetwork

theorem Transport.exists_stream? {t : Option Transport} :
    (∃ s, stream? t = some s ∧ s.misplacesReality) ↔ ∃ tr, t = some tr ∧ tr.misplacesReality := by
  cases t with
  | none => simp [stream?]
  | some tr =>
    by_cases hbare : tr.isBare = true
    · -- a bare transport is compiled to nothing, and is not protected by Reality
      have hsecurity : tr.security = .none := by
        simp only [isBare, Bool.and_eq_true, decide_eq_true_eq] at hbare
        exact hbare.2
      simp [stream?, Option.filter_some, hbare, misplacesReality, hsecurity]
    · simp [stream?, Option.filter_some, hbare, misplacesReality_toStream]

namespace Compile

variable {g : Graph} {t : Topology}

/-- The links at which an endpoint looks for a transport. -/
def facing (g : Graph) (n : Node) : List Edge :=
  match n.role with
  | .inbound _ => g.incoming n.id
  | .proxy _ => g.outgoing n.id
  | .device _ | .routing _ | .balancer _ | .terminal _ => []

/-- The transport of the node itself. -/
def own? (n : Node) : Option Transport :=
  match n.role with
  | .inbound c => c.transport
  | .proxy c => c.transport
  | .device _ | .routing _ | .balancer _ | .terminal _ => none

/-- The transport that an endpoint is compiled with. -/
def chosen? (g : Graph) (n : Node) : Option Transport :=
  Transport.choose (crossTransports g (facing g n)) (own? n)

/-- The transport of the node itself, unless a link between groups replaces it. -/
def brought? (g : Graph) (n : Node) : Option Transport :=
  if (carriers g (facing g n)).isEmpty then own? n else none

theorem mem_facing {n : Node} {e : Edge} (h : e ∈ facing g n) : e ∈ g.edges := by
  unfold facing at h
  split at h
  · exact (Graph.mem_incoming.mp h).1
  · exact (Graph.mem_outgoing.mp h).1
  all_goals cases h

/-- What is chosen is the transport of the first link that carries one, or what the node
brings. -/
theorem chosen?_eq_some {n : Node} {tr : Transport} : chosen? g n = some tr ↔
    (∃ e rest, carriers g (facing g n) = e :: rest ∧ e.transport? = some tr) ∨
      brought? g n = some tr := by
  cases hcarriers : carriers g (facing g n) with
  | nil => simp [chosen?, choose_own hcarriers, brought?, hcarriers]
  | cons e rest => simp [chosen?, choose_carried hcarriers, brought?, hcarriers]

/-- The stream settings of a document are those of its nodes. -/
theorem mem_streams {servers : List Server} {o : Options} {gr : Group} {s : Document.Stream} :
    s ∈ (document g servers o gr).streams ↔
      ∃ n ∈ gr.nodes, Transport.stream? (chosen? g n) = some s := by
  have hnode : ∀ n, Transport.stream? (chosen? g n) = some s ↔
      (inboundOf? g n).bind Document.Inbound.stream = some s ∨
        (outboundOf? g servers n).bind Document.Outbound.stream = some s := by
    intro n
    obtain ⟨id, position, role, server⟩ := n
    cases role with
    | inbound c => exact (or_iff_left nofun).symm
    | proxy c => exact (or_iff_right nofun).symm
    | device c | routing c | balancer c | terminal c =>
      exact ⟨nofun, fun h => h.elim nofun nofun⟩
  simp only [hnode, Document.streams, document, List.mem_append, List.filterMap_filterMap,
    List.mem_filterMap, ← exists_or, ← and_or_left]

theorem mem_compiled_streams {o : Options} {s : Document.Stream} :
    (∃ out ∈ t.compile o, s ∈ out.document.streams) ↔
      ∃ n ∈ t.nodes, Transport.stream? (chosen? t.graph n) = some s := by
  constructor
  · rintro ⟨out, hout, hs⟩
    obtain ⟨gr, hgr, rfl⟩ := List.mem_map.mp hout
    obtain ⟨n, hn, hs⟩ := mem_streams.mp hs
    exact ⟨n, (nodes_of_mem_groups hgr).subset hn, hs⟩
  · rintro ⟨n, hn, hs⟩
    obtain ⟨gr, hgr, hmem⟩ := exists_mem_groups hn
    exact ⟨_, List.mem_map_of_mem hgr, mem_streams.mpr ⟨n, hmem, hs⟩⟩

/-- In a valid graph no link between groups pairs Reality with such a network. -/
theorem not_misplacesReality_of_isValid (h : (Audit.check g).isValid = true) {e : Edge}
    (he : e ∈ g.edges) (hcrosses : g.crossesGroups e = true) {tr : Transport}
    (htransport : e.transport? = some tr) : ¬ tr.misplacesReality := by
  rintro ⟨hsecurity, hnetwork⟩
  have hfound : Audit.Finding.realityOver e.id tr.network ∈ Audit.securityFindings e.id tr := by
    simp_all [Audit.securityFindings]
  have hi : Audit.Issue.atBoth e.source e.id (.realityOver e.id tr.network) ∈
      Audit.transportsBetweenGroups g := by
    refine List.mem_flatMap.mpr ⟨e, he, ?_⟩
    rw [htransport]
    simp only [hcrosses, if_true]
    exact List.mem_map_of_mem (List.mem_append_left _ hfound)
  exact Audit.level_ne_of_isValid h (Audit.mem_issues_of_transport hi) rfl

/-- In the documents of a valid graph Reality is paired with a network that does not carry
it just when some inbound or proxy outbound brings such a pair itself and no link between
groups carries another transport to or from it. -/
theorem reality_streams (o : Options) (hvalid : (Audit.check t.graph).isValid = true) :
    (∃ out ∈ t.compile o, ∃ s ∈ out.document.streams, s.misplacesReality) ↔
      ∃ n ∈ t.nodes, ∃ tr, brought? t.graph n = some tr ∧ tr.misplacesReality := by
  have hchosen : (∃ out ∈ t.compile o, ∃ s ∈ out.document.streams, s.misplacesReality) ↔
      ∃ n ∈ t.nodes, ∃ tr, chosen? t.graph n = some tr ∧ tr.misplacesReality := by
    simp only [← Transport.exists_stream?]
    constructor
    · rintro ⟨out, hout, s, hs, hmisplaces⟩
      obtain ⟨n, hn, hstream⟩ := mem_compiled_streams.mp ⟨out, hout, hs⟩
      exact ⟨n, hn, s, hstream, hmisplaces⟩
    · rintro ⟨n, hn, s, hstream, hmisplaces⟩
      obtain ⟨out, hout, hs⟩ := mem_compiled_streams.mpr ⟨n, hn, hstream⟩
      exact ⟨out, hout, s, hs, hmisplaces⟩
  rw [hchosen]
  constructor
  · rintro ⟨n, hn, tr, htr, hmisplaces⟩
    rcases chosen?_eq_some.mp htr with ⟨e, rest, hcarriers, htransport⟩ | hbrought
    · obtain ⟨he, hcrosses, -⟩ := mem_carriers.mp (hcarriers ▸ List.mem_cons_self)
      exact absurd hmisplaces
        (not_misplacesReality_of_isValid hvalid (mem_facing he) hcrosses htransport)
    · exact ⟨n, hn, tr, hbrought, hmisplaces⟩
  · rintro ⟨n, hn, tr, hbrought, hmisplaces⟩
    exact ⟨n, hn, tr, chosen?_eq_some.mpr (.inr hbrought), hmisplaces⟩

/-- Reality over a network, with the one setting that a check asks for. -/
def realityOver (network : Network) : Transport :=
  ⟨network, .reality, none, none, none, none, some { Reality.empty with publicKey := some "key" }⟩

/-- An inbound that brings Reality over a WebSocket. -/
def realityIn : Node :=
  ⟨"in", .origin, .inbound ⟨"in", .vless, "", 443, none,
    [⟨"a", some "b831381d-6324-4d53-ad4f-8cda48b30811", none, none⟩], none,
    some (realityOver .ws)⟩, some "far"⟩

/-- A link into the inbound from another server carries a transport that replaces it. -/
def replaced : Topology where
  nodes := [
    mixedOut (mixedProxy "out" none), realityIn,
    ⟨"direct", .origin, .terminal ⟨"direct", .freedom⟩, some "far"⟩]
  edges := [
    mixedHop "out" "in" none (some (realityOver .raw)),
    ⟨"a", "in", "direct", .plain, none⟩]
  servers := []

theorem reality_streams_replaced :
    (Audit.check replaced.graph).isValid = true ∧
      ¬ ∃ out ∈ replaced.compile .usual, ∃ s ∈ out.document.streams, s.misplacesReality := by
  have hvalid : (Audit.check replaced.graph).isValid = true := by decide +kernel
  have hnone : ∀ n ∈ replaced.nodes, brought? replaced.graph n = none := by decide
  refine ⟨hvalid, ?_⟩
  rw [reality_streams .usual hvalid]
  rintro ⟨n, hn, tr, htr, -⟩
  rw [hnone n hn] at htr
  cases htr

/-- The inbound alone. -/
def unguarded : Topology where
  nodes := [realityIn, ⟨"direct", .origin, .terminal ⟨"direct", .freedom⟩, some "far"⟩]
  edges := [⟨"a", "in", "direct", .plain, none⟩]
  servers := []

/-- Nothing is wrong with the graph, but what the inbound brings is compiled. -/
theorem unguarded_reality :
    (unguarded.nodes.map Placed.id).Nodup ∧ (Audit.check unguarded.graph).isValid = true ∧
      ∃ out ∈ unguarded.compile .usual, ∃ i ∈ out.document.inbounds,
        i.stream.map (fun s => (s.network, s.security)) = some ("ws", "reality") := by
  refine ⟨?_, ?_, ?_⟩ <;> decide +kernel

end Compile
end ProxyPlan
