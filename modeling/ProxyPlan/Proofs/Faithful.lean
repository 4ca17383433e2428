/-
ProxyPlan.Proofs.Faithful — what is compiled from a valid graph is what its nodes say.

Compiling refuses nothing. It puts something else for what a document cannot hold: zero
for a port out of range, the address of the next server for one that is blank, nothing
for a user without a secret. Each of these cases is one that a check of a single node
reports as an error. So a valid graph has none of them (`roleFindings_of_isValid`), and
every default is only ever asked for what the node leaves open on purpose: the address
an inbound listens on.

Nothing is left out either. A document holds an inbound or outbound for each node of
its group that is one, in their order, and the settings of an inbound a client for each
of its users.
-/
import Mathlib.Data.List.Forall2
import ProxyPlan.Proofs.Hop
import ProxyPlan.Proofs.WellLinked

namespace ProxyPlan

/-! ## Lists -/

/-- If a function has a result just for the members that pass a test, its results belong
to these members one by one. -/
theorem forall₂_filterMap {α β : Type} {f : α → Option β} {R : α → β → Prop} {p : α → Bool}
    {xs : List α} (hsome : ∀ x ∈ xs, p x = true → ∃ y, f x = some y ∧ R x y)
    (hnone : ∀ x ∈ xs, p x = false → f x = none) :
    List.Forall₂ R (xs.filter p) (xs.filterMap f) := by
  induction xs with
  | nil => exact .nil
  | cons x rest ih =>
    have hrest := ih (fun y hy => hsome y (List.mem_cons_of_mem _ hy))
      (fun y hy => hnone y (List.mem_cons_of_mem _ hy))
    cases hp : p x with
    | false =>
      rw [List.filter_cons_of_neg (by simp [hp]), List.filterMap_cons, hnone x (by simp) hp]
      exact hrest
    | true =>
      obtain ⟨y, hy, hR⟩ := hsome x (by simp) hp
      rw [List.filter_cons_of_pos hp, List.filterMap_cons, hy]
      exact .cons hR hrest

namespace Compile

open Audit

/-! ## Ports and addresses -/

theorem isPort_iff {port : UInt32} :
    isPort port = true ↔ 1 ≤ port.toNat ∧ port.toNat ≤ 65535 := by
  simp [isPort, UInt32.le_iff_toNat_le]

/-- A port that can be listened on or dialled is kept. -/
theorem portOf_toNat {port : UInt32} (h : isPort port = true) :
    (portOf port).toNat = port.toNat := by
  have hrange := isPort_iff.mp h
  have hle : port ≤ 65535 := UInt32.le_iff_toNat_le.mpr hrange.2
  rw [portOf, if_pos hle, UInt32.toNat_toUInt16]
  omega

/-! ## Inbounds -/

/-- The client stands for the user, with the secret that the protocol asks for. -/
def ClientOf (protocol : InboundProtocol) (u : User) (client : Json) : Prop :=
  match protocol with
  | .vless | .vmess =>
    ∃ id, u.id = some id ∧ Rule.isUuid id = true ∧ client.get? "id" = some (.text id)
  | .trojan =>
    ∃ password, u.password = some password ∧ password ≠ "" ∧
      client.get? "password" = some (.text password)
  | .http | .socks | .shadowsocks | .dokodemo => True

/-- What a compiled inbound keeps of its configuration. -/
structure KeepsInbound (c : Inbound) (i : Document.Inbound) : Prop where
  tag : i.tag = c.tag
  protocol : i.protocol = c.protocol.name
  port : i.port.toNat = c.port.toNat
  inRange : 1 ≤ i.port.toNat ∧ i.port.toNat ≤ 65535
  address : Rule.isIpv4 i.listen = true
  listen : Text.blank c.listen = false → i.listen = Text.trim c.listen
  clients : c.protocol ∈ [.vless, .vmess, .trojan] →
    List.Forall₂ (ClientOf c.protocol) c.users (Import.itemsOf "clients" i.settings)

/-- A user with a UUID has a client with it. -/
theorem exists_idClient {c : Inbound} {u : User} (h : userFindings c u = [])
    (hprotocol : c.protocol = .vless ∨ c.protocol = .vmess) :
    ∃ entry, u.id.map (client u "id") = some entry ∧ ClientOf c.protocol u entry := by
  have huuid : Rule.isUuid (u.id.getD "") = true := by
    rcases hprotocol with hp | hp <;> simpa [userFindings, hp] using h
  cases hid : u.id with
  | none =>
    rw [hid] at huuid
    exact absurd huuid (by decide)
  | some id =>
    have hget : (client u "id" id).get? "id" = some (.text id) := by
      rw [get?_client u id (by decide)]
      rfl
    rw [hid, Option.getD_some] at huuid
    refine ⟨client u "id" id, rfl, ?_⟩
    rcases hprotocol with hp | hp <;>
    · rw [hp]
      exact ⟨id, hid, huuid, hget⟩

/-- A user with a password has a client with it. -/
theorem exists_passwordClient {c : Inbound} {u : User} (h : userFindings c u = [])
    (hprotocol : c.protocol = .trojan) :
    ∃ entry, u.password.map (client u "password") = some entry ∧ ClientOf c.protocol u entry := by
  have hgiven : u.password.all (· == "") = false := by simpa [userFindings, hprotocol] using h
  cases hpassword : u.password with
  | none => simp [hpassword] at hgiven
  | some password =>
    have hget : (client u "password" password).get? "password" = some (.text password) := by
      rw [get?_client u password (by decide)]
      rfl
    refine ⟨client u "password" password, rfl, ?_⟩
    rw [hprotocol]
    exact ⟨password, hpassword, by simpa [hpassword] using hgiven, hget⟩

/-- If nothing is wrong with the users, each of them has a client. -/
theorem clients_kept {c : Inbound} (h : ∀ u ∈ c.users, userFindings c u = [])
    (hprotocol : c.protocol ∈ [.vless, .vmess, .trojan]) :
    List.Forall₂ (ClientOf c.protocol) c.users (Import.itemsOf "clients" (inboundSettings c)) := by
  have hall : ∀ f : User → Option Json,
      (∀ u ∈ c.users, ∃ entry, f u = some entry ∧ ClientOf c.protocol u entry) →
      List.Forall₂ (ClientOf c.protocol) c.users (c.users.filterMap f) := by
    intro f hf
    have hclients := forall₂_filterMap (p := fun _ => true) (fun u hu _ => hf u hu) (by simp)
    rwa [List.filter_eq_self.mpr (by simp)] at hclients
  simp only [List.mem_cons, List.not_mem_nil, or_false] at hprotocol
  rcases hprotocol with hp | hp | hp
  · rw [inboundSettings, hp, Import.itemsOf_list rfl, ← hp]
    exact hall _ fun u hu => exists_idClient (h u hu) (.inl hp)
  · rw [inboundSettings, hp, Import.itemsOf_list rfl, ← hp]
    exact hall _ fun u hu => exists_idClient (h u hu) (.inr hp)
  · rw [inboundSettings, hp, Import.itemsOf_list rfl, ← hp]
    exact hall _ fun u hu => exists_passwordClient (h u hu) hp

theorem keepsInbound {c : Inbound} (h : inboundFindings c = [])
    (stream : Option Document.Stream) : KeepsInbound c (inbound c stream) := by
  simp only [inboundFindings, List.append_eq_nil_iff, when_eq_nil, Bool.not_eq_false',
    List.flatMap_eq_nil_iff] at h
  obtain ⟨⟨hport, hlisten⟩, husers⟩ := h
  have hrange := isPort_iff.mp hport
  refine ⟨rfl, rfl, portOf_toNat hport, ?inRange, ?address, ?listen, clients_kept husers⟩
  case inRange =>
    show 1 ≤ (portOf c.port).toNat ∧ (portOf c.port).toNat ≤ 65535
    rwa [portOf_toNat hport]
  case address =>
    show Rule.isIpv4 ((Text.nonBlank? c.listen).getD usualListen) = true
    cases hgiven : Text.nonBlank? c.listen with
    | none => decide
    | some listen => simpa [hgiven] using hlisten
  case listen =>
    intro hblank
    show (Text.nonBlank? c.listen).getD usualListen = _
    simp [Text.nonBlank?, hblank]

/-! ## Proxy outbounds -/

/-- What a compiled proxy outbound keeps of its configuration. -/
structure KeepsProxy (c : Proxy) (out : Document.Outbound) : Prop where
  tag : out.tag = c.tag
  protocol : out.protocol = c.protocol.name
  address : Text.blank c.address = false
  inRange : 1 ≤ c.port.toNat ∧ c.port.toNat ≤ 65535
  dials : ∃ port : UInt16, port.toNat = c.port.toNat ∧
    Dials c.protocol out.settings (Text.trim c.address) port
  /-- Whatever server the outbound is joined to. -/
  settings : ∀ peer, out.settings = proxySettings c (dialAddress c peer) (dialPort c peer)

theorem keepsProxy {c : Proxy} (h : proxyFindings c = []) (peer : Option Peer)
    (stream : Option Document.Stream) : KeepsProxy c (proxy c peer stream) := by
  simp only [proxyFindings, List.append_eq_nil_iff, when_eq_nil, Bool.not_eq_false'] at h
  obtain ⟨hblank, hport⟩ := h
  have hrange := isPort_iff.mp hport
  have haddress : ∀ peer, dialAddress c peer = Text.trim c.address := by
    intro peer
    simp [dialAddress, Text.nonBlank?, hblank]
  have hdialled : ∀ peer, dialPort c peer = portOf c.port := by
    intro peer
    have hne : c.port ≠ 0 := by
      rintro hzero
      rw [hzero] at hrange
      simp at hrange
    rw [dialPort, if_neg hne]
  refine ⟨rfl, rfl, hblank, hrange, ⟨portOf c.port, portOf_toNat hport, ?dials⟩, ?settings⟩
  case dials =>
    show Dials c.protocol (proxySettings c (dialAddress c peer) (dialPort c peer)) _ _
    rw [haddress, hdialled]
    exact dials_proxySettings c _ _
  case settings =>
    intro other
    show proxySettings c (dialAddress c peer) (dialPort c peer) = _
    rw [haddress, haddress, hdialled, hdialled]

/-! ## Documents -/

section

variable {t : Topology} {g : Group} (hvalid : (check t.graph).isValid = true) (hg : g ∈ groups t)

include hvalid hg

theorem findings_of_group {n : Node} (hn : n ∈ g.nodes) : roleFindings n.role = [] :=
  roleFindings_of_isValid hvalid ((nodes_of_mem_groups hg).subset hn)

theorem inbounds_kept : List.Forall₂ (fun n i => ∃ c, n.role = .inbound c ∧ KeepsInbound c i)
    (g.nodes.filter fun n => n.kind = .inbound) (g.nodes.filterMap (inboundOf? t.graph)) := by
  refine forall₂_filterMap ?some ?none
  case some =>
    intro n hn hkind
    have hfindings := findings_of_group hvalid hg hn
    obtain ⟨id, position, role, server⟩ := n
    cases role <;> cases of_decide_eq_true hkind
    exact ⟨_, rfl, _, rfl, keepsInbound hfindings _⟩
  case none =>
    intro n _ hkind
    obtain ⟨id, position, role, server⟩ := n
    cases role <;> first | rfl | cases hkind

theorem outbounds_kept :
    List.Forall₂ (fun n out => n.tag? = some out.tag ∧ ∀ c, n.role = .proxy c → KeepsProxy c out)
      (g.nodes.filter fun n => n.kind.isOutbound)
      (g.nodes.filterMap (outboundOf? t.graph t.servers)) := by
  refine forall₂_filterMap ?some ?none
  case some =>
    intro n hn hkind
    have hfindings := findings_of_group hvalid hg hn
    obtain ⟨id, position, role, server⟩ := n
    cases role with
    | terminal c =>
      refine ⟨terminal c, rfl, rfl, ?_⟩
      intro _ hproxy
      cases hproxy
    | proxy c =>
      refine ⟨proxy c (peer? t.graph t.servers id) (proxyStream t.graph id c), rfl, rfl, ?_⟩
      intro _ hproxy
      cases hproxy
      exact keepsProxy hfindings _ _
    | device | inbound | routing | balancer => cases hkind
  case none =>
    intro n _ hkind
    obtain ⟨id, position, role, server⟩ := n
    cases role <;> first | rfl | cases hkind

end

/-- From a valid graph nothing is compiled to a default and nothing is left out. In the
document of each group every inbound node has one inbound, with its own port and an IPv4
address, and with a client for each of its users; and every proxy node has one outbound,
with its own address and port, whatever it is joined to. -/
theorem compile_faithful {t : Topology} (hvalid : (check t.graph).isValid = true) (o : Options) :
    List.Forall₂
      (fun g out =>
        List.Forall₂ (fun n i => ∃ c, n.role = .inbound c ∧ KeepsInbound c i)
          (g.nodes.filter fun n => n.kind = .inbound) out.document.inbounds ∧
        List.Forall₂
          (fun n out => n.tag? = some out.tag ∧ ∀ c, n.role = .proxy c → KeepsProxy c out)
          (g.nodes.filter fun n => n.kind.isOutbound) out.document.outbounds)
      (groups t) (t.compile o) := by
  rw [Topology.compile, List.forall₂_map_right_iff, List.forall₂_same]
  intro g hg
  exact ⟨inbounds_kept hvalid hg, outbounds_kept hvalid hg⟩

/-- An inbound of `outpost` with two users. -/
def outpostInbound : Inbound where
  tag := "in"
  protocol := .vless
  listen := " "
  port := 8443
  sniffing := none
  users := [
    ⟨"a", some " b831381d-6324-4d53-ad4f-8cda48b30811", none, none⟩,
    ⟨"b", some "0aa43a5f-0a0e-4a0c-9a3f-1d1a3f3f3f3f", none, some 1⟩]
  method := none
  transport := none

/-- A proxy outbound of `outpost` with white space around its address. -/
def outpostProxy : Proxy :=
  ⟨"out", .socks, " 192.0.2.7 ", 1080, none, none, none, none⟩

/-- An inbound that leads to a proxy outbound, on one server. -/
def outpost : Topology where
  nodes := [
    ⟨"in", .origin, .inbound outpostInbound, none⟩,
    ⟨"out", .origin, .proxy outpostProxy, none⟩]
  edges := [⟨"a", "in", "out", .plain, none⟩]
  servers := []

theorem compile_faithful_outpost :
    (check outpost.graph).isValid = true ∧
      ∃ out i x, outpost.compile .usual = [out] ∧ out.document.inbounds = [i] ∧
        out.document.outbounds = [x] ∧ KeepsInbound outpostInbound i ∧
        KeepsProxy outpostProxy x := by
  have hvalid : (check outpost.graph).isValid = true := by decide +kernel
  have hfaithful := compile_faithful hvalid .usual
  rw [groups_ungrouped (by decide)] at hfaithful
  obtain ⟨out, _, ⟨hin, hout⟩, hlast, hcompile⟩ := List.forall₂_cons_left_iff.mp hfaithful
  obtain rfl := List.forall₂_nil_left_iff.mp hlast
  obtain ⟨i, _, ⟨c, hrole, hinbound⟩, hlast, hinbounds⟩ := List.forall₂_cons_left_iff.mp hin
  obtain rfl := List.forall₂_nil_left_iff.mp hlast
  obtain ⟨x, _, ⟨-, hproxy⟩, hlast, houtbounds⟩ := List.forall₂_cons_left_iff.mp hout
  obtain rfl := List.forall₂_nil_left_iff.mp hlast
  cases hrole
  exact ⟨hvalid, out, i, x, hcompile, hinbounds, houtbounds, hinbound, hproxy _ rfl⟩

end Compile
end ProxyPlan
