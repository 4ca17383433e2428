/-
ProxyPlan.Proofs.Admission — a server that passes traffic on admits what is sent to it.

One record of a client graph is compiled at two ends. The server itself, if it passes
traffic on, gets a document with an inbound made of the record; the user, and every server
that leads to it, gets an outbound made of the same record. Protocol, port and transport
are copied on both sides, so the ends agree on them whatever they are.

A secret is written by each side in its own form, and so the two are compared by what they
hold: what the outbound presents and what the inbound knows (`Admits`). They fit just when
the record has the secret that its protocol asks for and, if the protocol asks for none,
has no password (`admits_iff`). For an inbound turns any password into an account, but the
outbounds of protocols with accounts present none, so a password of such a server locks
out all who are sent to it (`gate_refuses`).
-/
import ProxyPlan.Proofs.ClientDocuments
import ProxyPlan.Proofs.Hop

namespace ProxyPlan

open Import (itemsOf serversField)

/-! ## What settings hold -/

/-- The texts that items have under a name. -/
def Json.texts (name : String) (items : List Json) : List String :=
  items.filterMap fun v => (v.get? name).bind Json.text?

/-- The pairs of user name and password among items. -/
def Json.accounts (items : List Json) : List (String × String) :=
  items.filterMap fun v => do
    let user ← (v.get? "user").bind Json.text?
    let password ← (v.get? "pass").bind Json.text?
    return (user, password)

namespace Document

/-- The inbound asks for no account. -/
def Inbound.IsOpen (i : Inbound) : Prop :=
  itemsOf "accounts" i.settings = [] ∧ (i.settings.get? "auth").bind Json.text? ≠ some "password"

/-- The inbound knows what the outbound presents, as far as the protocol asks for it. -/
def Inbound.Admits (i : Inbound) (protocol : ProxyProtocol) (out : Outbound) : Prop :=
  let servers := itemsOf (serversField protocol) out.settings
  let users := servers.flatMap (itemsOf "users")
  match protocol with
  | .vless | .vmess =>
    ∃ id, Json.texts "id" users = [id] ∧ id ∈ Json.texts "id" (itemsOf "clients" i.settings)
  | .trojan =>
    ∃ password, Json.texts "password" servers = [password] ∧
      password ∈ Json.texts "password" (itemsOf "clients" i.settings)
  | .shadowsocks =>
    ∃ method password, Json.texts "method" servers = [method] ∧
      Json.texts "password" servers = [password] ∧
      Json.texts "method" [i.settings] = [method] ∧
      Json.texts "password" [i.settings] = [password]
  | .socks | .http =>
    i.IsOpen ∨ ∃ account ∈ Json.accounts users,
      account ∈ Json.accounts (itemsOf "accounts" i.settings)

end Document

namespace Compile

/-- The clients of an inbound have the secrets of its users. -/
theorem texts_clients (users : List User) {key : String} (secret : User → Option String)
    (hemail : key ≠ "email") (hlevel : key ≠ "level") :
    Json.texts key (users.filterMap fun u => (secret u).map (client u key)) =
      users.filterMap secret := by
  rw [Json.texts, List.filterMap_filterMap]
  refine List.filterMap_congr fun u _ => ?_
  cases hsecret : secret u with
  | none => rfl
  | some s => simp [get?_client u s hlevel, hemail, Json.text?]

end Compile

namespace Client

open Compile (Options Output)

/-! ## The two ends of a server -/

/-- The server has the secret that its protocol asks for; if that asks for none, it has no
password. -/
def Relay.WellKeyed (r : Relay) : Prop :=
  match r.protocol with
  | .vless | .vmess => r.id.isSome
  | .trojan | .shadowsocks => r.password.isSome
  | .socks | .http => r.password = none

/-- The listening end of a server that passes traffic on. -/
def Relay.inbound (r : Relay) : Document.Inbound :=
  Compile.inbound r.listener (Transport.stream? r.transport)

/-- A secret that is presented, blank if there is none, is known just when there is one. -/
theorem exists_known (secret : Option String) :
    (∃ s, [secret.getD ""] = [s] ∧ s ∈ secret.toList) ↔ secret.isSome = true := by
  cases secret <;> simp

/-- The clients of the listening end know the one secret of the server, if it has one. -/
theorem texts_listener (r : Relay) (key : String) (secret : User → Option String)
    (hemail : key ≠ "email") (hlevel : key ≠ "level") :
    Json.texts key (r.listener.users.filterMap fun u => (secret u).map (Compile.client u key)) =
      (secret ⟨"", r.id, r.password, none⟩).toList := by
  rw [Compile.texts_clients _ _ hemail hlevel, Relay.listener, List.filterMap_cons,
    List.filterMap_nil]
  cases secret ⟨"", r.id, r.password, none⟩ <;> rfl

/-- The inbound of a protocol with accounts asks for one if the server has a password. -/
theorem isOpen_inbound {r : Relay} (h : r.protocol = .socks ∨ r.protocol = .http) :
    r.inbound.IsOpen ↔ r.password = none := by
  obtain ⟨tag, protocol, address, port, id, password, method, transport⟩ := r
  dsimp only at h
  cases password with
  | none =>
    refine iff_of_true ?_ rfl
    obtain rfl | rfl := h
    · exact ⟨rfl, show some "noauth" ≠ some "password" by decide⟩
    · exact ⟨rfl, nofun⟩
  | some password =>
    refine iff_of_false ?_ nofun
    obtain rfl | rfl := h <;> exact fun hopen => nomatch hopen.1

/-- The inbound of a server admits its outbound just when the server has the secret that
the protocol asks for, and no password if it asks for none. -/
theorem admits_iff (r : Relay) : r.inbound.Admits r.protocol r.outbound ↔ r.WellKeyed := by
  have hids := texts_listener r "id" User.id (by decide) (by decide)
  have hpasswords := texts_listener r "password" User.password (by decide) (by decide)
  have hopen := isOpen_inbound (r := r)
  obtain ⟨tag, protocol, address, port, id, password, method, transport⟩ := r
  cases protocol with
  | vless | vmess =>
    refine Iff.trans ?_ (exists_known id)
    refine exists_congr fun s => and_congr_right fun _ => ?_
    exact iff_of_eq (congrArg (s ∈ ·) hids)
  | trojan =>
    refine Iff.trans ?_ (exists_known password)
    refine exists_congr fun s => and_congr_right fun _ => ?_
    exact iff_of_eq (congrArg (s ∈ ·) hpasswords)
  | shadowsocks =>
    constructor
    · rintro ⟨_, known, -, -, -, hknown⟩
      cases password with
      | none => cases hknown
      | some _ => rfl
    · intro hgiven
      obtain ⟨known, rfl⟩ := Option.isSome_iff_exists.mp hgiven
      exact ⟨Compile.methodOf method, known, rfl, rfl, rfl, rfl⟩
  | socks | http =>
    -- no account is presented, so the inbound must be open
    refine Iff.trans (or_iff_left ?_) (hopen (by simp))
    rintro ⟨account, hpresented, -⟩
    cases hpresented

/-- The port that is dialled is the port that is listened on, in range or not. -/
theorem dialPort_toProxy (r : Relay) : Compile.dialPort r.toProxy none = Compile.portOf r.port := by
  show Compile.portOf (if r.port = 0 then 0 else r.port) = _
  split
  case isTrue hzero => rw [hzero]
  case isFalse => rfl

/-- A server of a client graph that passes traffic on has an inbound in its own document,
and an outbound in the document of the user and in that of every server that leads to it.
The outbound speaks the protocol of the inbound, dials its port and is carried in the same
way; and the inbound knows what the outbound presents just when the server has the secret
that its protocol asks for, and no password if that asks for none. -/
theorem relay_admits {g : Graph} (o : Options) {n : Node} {r next : Relay}
    (h : g.Relays n r next) :
    ∃ i, relayOutput o r next ∈ g.compile o ∧
      (relayOutput o r next).document.inbounds = [i] ∧
      r.outbound ∈ (g.clientDocument o).outbounds ∧
      (∀ m r', g.Relays m r' r → relayOutput o r' r ∈ g.compile o ∧
        r.outbound ∈ (relayOutput o r' r).document.outbounds) ∧
      i.protocol = r.outbound.protocol ∧
      Compile.Dials r.protocol r.outbound.settings ((Text.nonBlank? r.address).getD "") i.port ∧
      i.stream = r.outbound.stream ∧
      (i.Admits r.protocol r.outbound ↔ r.WellKeyed) := by
  refine ⟨r.inbound, mem_compile.mpr (.inr ⟨n, r, next, h, rfl⟩), rfl, ?client, ?relays,
    ?protocol, ?dials, rfl, admits_iff r⟩
  case client =>
    refine outbound_mem h.mem ?_
    rw [outboundOf?, h.role]
  case relays =>
    intro m r' h'
    exact ⟨mem_compile.mpr (.inr ⟨m, r', r, h', rfl⟩), List.mem_cons_self⟩
  case protocol =>
    show r.protocol.toInbound.name = r.protocol.name
    cases r.protocol <;> rfl
  case dials =>
    show Compile.Dials r.protocol (Compile.proxySettings r.toProxy
      (Compile.dialAddress r.toProxy none) (Compile.dialPort r.toProxy none)) _
      (Compile.portOf r.port)
    rw [← dialPort_toProxy]
    exact Compile.dials_proxySettings r.toProxy _ _

/-- The first server of `cascade`: a SOCKS server with a password. -/
def gate : Relay := ⟨"gate", .socks, "192.0.2.1", 1080, none, some "sesame", none, none⟩

/-- The second server of `cascade`, over a WebSocket and with a port out of range. -/
def bridge : Relay :=
  ⟨"bridge", .vless, " 192.0.2.2 ", 70000, some "b831381d", none, none,
    some ⟨.ws, .none, some ⟨some "/ws", none⟩, none, none, none, none⟩⟩

/-- The third server of `cascade`, which passes nothing on. -/
def harbour : Relay := ⟨"harbour", .trojan, "192.0.2.3", 443, none, some "anchor", none, none⟩

/-- A user whose traffic passes three servers. -/
def cascade : Graph where
  nodes := [⟨"u", .origin, .user .usual, none⟩, ⟨"a", .origin, .server gate, none⟩,
    ⟨"b", .origin, .server bridge, none⟩, ⟨"c", .origin, .server harbour, none⟩]
  edges := [⟨"e", "u", "a", .plain, none⟩, ⟨"f", "a", "b", .plain, none⟩,
    ⟨"g", "b", "c", .plain, none⟩]

theorem relays_gate : cascade.Relays ⟨"a", .origin, .server gate, none⟩ gate bridge :=
  ⟨by decide, rfl, by decide⟩

theorem relay_admits_cascade :
    cascade.Relays ⟨"b", .origin, .server bridge, none⟩ bridge harbour ∧
      ∃ i, (relayOutput .usual bridge harbour).document.inbounds = [i] ∧
        bridge.outbound ∈ (relayOutput .usual gate bridge).document.outbounds ∧
        Compile.Dials .vless bridge.outbound.settings "192.0.2.2" i.port ∧
        i.Admits .vless bridge.outbound := by
  have hrelays : cascade.Relays ⟨"b", .origin, .server bridge, none⟩ bridge harbour :=
    ⟨by decide, rfl, by decide⟩
  obtain ⟨i, -, hinbounds, -, hleads, -, hdials, -, hadmits⟩ := relay_admits .usual hrelays
  exact ⟨hrelays, i, hinbounds, (hleads _ _ relays_gate).2, hdials, hadmits.mpr rfl⟩

/-- The server asks for an account with its password, and what the user is given to connect
to it with presents none. -/
theorem gate_refuses :
    relayOutput .usual gate bridge ∈ cascade.compile .usual ∧
      (relayOutput .usual gate bridge).document.inbounds = [gate.inbound] ∧
      gate.outbound ∈ (cascade.clientDocument .usual).outbounds ∧
      ¬ gate.inbound.Admits .socks gate.outbound :=
  ⟨mem_compile.mpr (.inr ⟨_, _, _, relays_gate, rfl⟩), rfl, outbound_mem relays_gate.mem rfl,
    fun hadmits => nomatch (admits_iff gate).mp hadmits⟩

end Client
end ProxyPlan
