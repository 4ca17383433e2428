/-
ProxyPlan.Proofs.Endpoints — inbounds and outbounds taken over from a document
compile to what they were taken from.

Compiling forgets a good deal: users without a secret, blocks of settings that
do not belong to the transport, ports out of range. What it writes instead is
in a normal form, and taking that over and compiling it again gives the same.
The one exception are secrets that are empty texts. They are written, but an
empty text counts as missing when it is read, so they are excluded
(`Inbound.Secret`).

Settings are written in order of their names, so documents hold them as they
are (`settingsWritten_inbound`, `settingsWritten_proxy`).
-/
import ProxyPlan.Compile.Endpoint
import ProxyPlan.Import.Settings
import ProxyPlan.Proofs.DocumentFormat
import ProxyPlan.Proofs.Text
import ProxyPlan.Proofs.Vocabulary

namespace ProxyPlan

/-! ## Transports -/

namespace Transport

theorem ofWire?_wireName (n : Network) : Network.ofWire? n.wireName = some n := by
  cases n <;> rfl

theorem ofWire?_name (s : Security) : Security.ofWire? s.name = some s := by
  cases s <;> rfl

/-- Settings that are compiled from a transport are compiled from what they are
taken over as. -/
theorem toStream_toTransport (t : Transport) : t.toStream.toTransport.toStream = t.toStream := by
  have hnetwork : (Network.ofWire? t.network.wireName).getD .raw = t.network := by
    rw [ofWire?_wireName, Option.getD_some]
  have hsecurity : (Security.ofWire? t.security.name).getD .none = t.security := by
    rw [ofWire?_name, Option.getD_some]
  simp only [toStream, Document.Stream.toTransport, hnetwork, hsecurity, Option.filter_filter,
    Bool.and_self]

theorem stream?_lift? (t : Option Transport) :
    stream? (Document.Stream.lift? (stream? t)) = stream? t := by
  cases t with
  | none => rfl
  | some t =>
    cases hbare : t.isBare with
    | true => simp [stream?, Document.Stream.lift?, Option.filter_some, hbare]
    | false =>
      have hbare' : t.toStream.toTransport.isBare = false := by
        simpa [isBare, toStream, Document.Stream.toTransport, ofWire?_wireName, ofWire?_name]
          using hbare
      simp [stream?, Document.Stream.lift?, Option.filter_some, hbare, hbare',
        toStream_toTransport]

end Transport

/-! ## Fields of settings -/

namespace Import

theorem textOf?_text {name s : String} {v : Json} (h : v.get? name = some (.text s))
    (hs : s ≠ "") : textOf? name v = some s := by
  simp [textOf?, h, Json.text?, hs, Option.filter_some]

/-- A text that may be empty is read back, the empty one as missing. -/
theorem textOf?_getD {name s : String} {v : Json} (h : v.get? name = some (.text s)) :
    (textOf? name v).getD "" = s := by
  by_cases hs : s = ""
  · simp [textOf?, h, Json.text?, hs, Option.filter_some]
  · rw [textOf?_text h hs, Option.getD_some]

theorem textOf?_none {name : String} {v : Json} (h : v.get? name = none) :
    textOf? name v = none := by
  simp [textOf?, h]

theorem wordOf?_nat {name : String} {v : Json} {n : UInt32}
    (h : v.get? name = some (.nat n.toNat)) : wordOf? name v = some n := by
  simp only [wordOf?, h, Json.nat, Option.bind_some]
  show Text.word? n.toNat = some n
  rw [Text.word?_of_lt n.toNat_lt, UInt32.ofNat_toNat]

theorem itemsOf_list {name : String} {v : Json} {items : List Json}
    (h : v.get? name = some (.list items)) : itemsOf name v = items := by
  simp [itemsOf, h, Json.items?]

/-- The tag of an entry is the tag it was given, if it is tight. -/
theorem tagOr_of_tight {tag : String} (h : Text.Tight tag) (fallback : String) :
    tagOr tag fallback = tag := by
  rw [tagOr, h.nonBlank?, Option.getD_some]

end Import

/-! ## Defaults are stable -/

namespace Compile

open Import

theorem nonBlank?_getD {s fallback : String} (h : Text.Tight fallback) :
    (Text.nonBlank? ((Text.nonBlank? s).getD fallback)).getD fallback =
      (Text.nonBlank? s).getD fallback := by
  cases hs : Text.nonBlank? s with
  | none => rw [Option.getD_none, h.nonBlank?, Option.getD_some]
  | some t => rw [Option.getD_some, Text.nonBlank?_of_nonBlank? hs, Option.getD_some]

theorem portOf_toUInt32 (p : UInt16) : portOf p.toUInt32 = p := by
  have hle : p.toUInt32 ≤ 65535 := by
    rw [UInt32.le_iff_toNat_le]
    have := p.toNat_lt
    simp
    omega
  rw [portOf, if_pos hle]
  simp

theorem blank_methodOf (method : Option String) : Text.blank (methodOf method) = false := by
  cases method with
  | none => decide
  | some m =>
    rw [methodOf, Option.filter_some]
    cases hm : Text.blank m with
    | true =>
      show Text.blank usualMethod = false
      decide
    | false => simpa using hm

theorem methodOf_ne_empty (method : Option String) : methodOf method ≠ "" := by
  intro h
  have hblank := blank_methodOf method
  rw [h] at hblank
  exact absurd hblank (by decide)

theorem methodOf_methodOf (method : Option String) :
    methodOf (some (methodOf method)) = methodOf method := by
  rw [methodOf, Option.filter_some, if_pos (by rw [blank_methodOf]; rfl), Option.getD_some]

end Compile

/-! ## Users -/

/-- No secret of a user of the inbound is the empty text. -/
def Inbound.SecretsGiven (c : Inbound) : Prop :=
  ∀ u ∈ c.users, u.id ≠ some "" ∧ u.password ≠ some ""

namespace Compile

open Import Json

/-- What is taken over from some of the entries that were made of a list gives
the same entries again. -/
theorem filterMap_recovered {α β : Type} {f : α → Option β} {lift : β → α} {xs : List α}
    (h : ∀ x ∈ xs, ∀ y, f x = some y → f (lift y) = some y) :
    ((xs.filterMap f).map lift).filterMap f = xs.filterMap f := by
  rw [List.filterMap_map]
  have hsame : ∀ y ∈ xs.filterMap f, (f ∘ lift) y = some y := by
    intro y hy
    obtain ⟨x, hx, hxy⟩ := List.mem_filterMap.mp hy
    exact h x hx y hxy
  rw [List.filterMap_congr hsame, List.filterMap_some]

theorem get?_client (u : User) {key : String} (secret : String) (hlevel : key ≠ "level")
    (name : String) :
    (client u key secret).get? name =
      if name = "email" then some (.text u.email)
      else if name = key then some (.text secret)
      else if name = "level" then u.level.map fun l => .nat l.toNat
      else none := by
  rw [client, get?, lookup_cons]
  by_cases hemail : name = "email"
  · rw [if_pos hemail, if_pos hemail]
  rw [if_neg hemail, if_neg hemail]
  by_cases hkey : name = key
  · subst hkey
    cases u.level <;> split <;> simp [lookup_cons, hlevel]
  · cases u.level <;> split <;> simp [lookup_cons, hkey]

/-- A user with an identity is taken over with it. -/
theorem clientUser_id {u : User} {id : String} (h : id ≠ "") :
    clientUser (client u "id" id) = ⟨u.email, some id, none, u.level⟩ := by
  have hget := get?_client u id (by decide : "id" ≠ "level")
  have hemail : (textOf? "email" (client u "id" id)).getD "" = u.email :=
    textOf?_getD (by rw [hget]; rfl)
  have hid : textOf? "id" (client u "id" id) = some id := textOf?_text (by rw [hget]; rfl) h
  have hpassword : textOf? "password" (client u "id" id) = none := textOf?_none (by rw [hget]; rfl)
  have hlevel : wordOf? "level" (client u "id" id) = u.level := by
    cases hl : u.level with
    | none => simp [wordOf?, hget, hl]
    | some l => exact wordOf?_nat (by rw [hget, hl]; rfl)
  rw [clientUser, hemail, hid, hpassword, hlevel]

/-- A user with a password is taken over with it. -/
theorem clientUser_password {u : User} {password : String} (h : password ≠ "") :
    clientUser (client u "password" password) = ⟨u.email, none, some password, u.level⟩ := by
  have hget := get?_client u password (by decide : "password" ≠ "level")
  have hemail : (textOf? "email" (client u "password" password)).getD "" = u.email :=
    textOf?_getD (by rw [hget]; rfl)
  have hid : textOf? "id" (client u "password" password) = none := textOf?_none (by rw [hget]; rfl)
  have hpassword : textOf? "password" (client u "password" password) = some password :=
    textOf?_text (by rw [hget]; rfl) h
  have hlevel : wordOf? "level" (client u "password" password) = u.level := by
    cases hl : u.level with
    | none => simp [wordOf?, hget, hl]
    | some l => exact wordOf?_nat (by rw [hget, hl]; rfl)
  rw [clientUser, hemail, hid, hpassword, hlevel]

theorem idClients_recovered {c : Inbound} (h : c.SecretsGiven) :
    idClients ((c.users.filterMap fun u => u.id.map (client u "id")).map clientUser) =
      idClients c.users := by
  refine congrArg Json.list (filterMap_recovered fun u hu v hv => ?_)
  obtain ⟨id, hid, rfl⟩ := Option.map_eq_some_iff.mp hv
  rw [clientUser_id fun hempty => (h u hu).1 (hempty ▸ hid)]
  rfl

theorem passwordClients_recovered {c : Inbound} (h : c.SecretsGiven) :
    passwordClients ((c.users.filterMap fun u => u.password.map (client u "password")).map
      clientUser) = passwordClients c.users := by
  refine congrArg Json.list (filterMap_recovered fun u hu v hv => ?_)
  obtain ⟨password, hpassword, rfl⟩ := Option.map_eq_some_iff.mp hv
  rw [clientUser_password fun hempty => (h u hu).2 (hempty ▸ hpassword)]
  rfl

theorem accounts_recovered {c : Inbound} (h : c.SecretsGiven) :
    accounts ((accounts c.users).map accountUser) = accounts c.users := by
  refine filterMap_recovered fun u hu v hv => ?_
  obtain ⟨password, hpassword, rfl⟩ := Option.map_eq_some_iff.mp hv
  have hne : password ≠ "" := fun hempty => (h u hu).2 (hempty ▸ hpassword)
  have huser : (textOf? "user" (.object [("pass", .text password), ("user", .text u.email)])).getD
      "" = u.email := textOf?_getD rfl
  have hpass : textOf? "pass" (.object [("pass", .text password), ("user", .text u.email)]) =
      some password := textOf?_text rfl hne
  rw [accountUser, huser, hpass]
  rfl

/-! ## Inbounds -/

/-- The settings of an inbound that is taken over are what they were. -/
theorem inboundSettings_recovered {c c' : Inbound} (h : c.SecretsGiven)
    (hprotocol : c'.protocol = c.protocol)
    (husers : c'.users = usersOf c.protocol (inboundSettings c))
    (hmethod : c.protocol = .shadowsocks → c'.method = textOf? "method" (inboundSettings c)) :
    inboundSettings c' = inboundSettings c := by
  cases hp : c.protocol with
  | vless =>
    have hs : inboundSettings c =
        .object [("clients", idClients c.users), ("decryption", .text "none")] := by
      rw [inboundSettings, hp]
    rw [hp, hs, usersOf, itemsOf_list rfl] at husers
    rw [hs, inboundSettings, hprotocol.trans hp, husers, idClients_recovered h]
  | vmess =>
    have hs : inboundSettings c = .single "clients" (idClients c.users) := by
      rw [inboundSettings, hp]
    rw [hp, hs, usersOf, itemsOf_list rfl] at husers
    rw [hs, inboundSettings, hprotocol.trans hp, husers, idClients_recovered h]
  | trojan =>
    have hs : inboundSettings c = .single "clients" (passwordClients c.users) := by
      rw [inboundSettings, hp]
    rw [hp, hs, usersOf, itemsOf_list rfl] at husers
    rw [hs, inboundSettings, hprotocol.trans hp, husers, passwordClients_recovered h]
  | shadowsocks =>
    have hs : inboundSettings c = .object ([("method", .text (methodOf c.method)),
        ("network", .text "tcp,udp")] ++ (c.users.findSome? User.password).toList.map fun p =>
          ("password", .text p)) := by
      rw [inboundSettings, hp]
    have hmethod' : c'.method = some (methodOf c.method) := by
      rw [hmethod hp, hs]
      exact textOf?_text rfl (methodOf_ne_empty _)
    have hpassword : c'.users.findSome? User.password = c.users.findSome? User.password := by
      rw [husers, hp, hs, usersOf]
      cases hfound : c.users.findSome? User.password with
      | none => rfl
      | some password =>
        obtain ⟨u, hu, hup⟩ := List.exists_of_findSome?_eq_some hfound
        have hne : password ≠ "" := fun hempty => (h u hu).2 (hempty ▸ hup)
        have htext : textOf? "password" (.object ([("method", .text (methodOf c.method)),
            ("network", .text "tcp,udp")] ++ (some password).toList.map fun p =>
              ("password", .text p))) = some password := textOf?_text rfl hne
        rw [htext]
        rfl
    rw [hs, inboundSettings, hprotocol.trans hp]
    simp only [hmethod', methodOf_methodOf, hpassword]
  | socks =>
    have hrecovered := accounts_recovered h
    have husers' : c'.users = (accounts c.users).map accountUser := by
      rw [husers, hp, inboundSettings, hp, usersOf]
      cases haccounts : accounts c.users with
      | nil => rfl
      | cons a as => rfl
    rw [inboundSettings, hprotocol.trans hp, inboundSettings, hp, husers', hrecovered]
  | http =>
    have hrecovered := accounts_recovered h
    have husers' : c'.users = (accounts c.users).map accountUser := by
      rw [husers, hp, inboundSettings, hp, usersOf]
      cases haccounts : accounts c.users with
      | nil => rfl
      | cons a as => rfl
    rw [inboundSettings, hprotocol.trans hp, inboundSettings, hp, husers', hrecovered]
  | dokodemo => rw [inboundSettings, hprotocol.trans hp, inboundSettings, hp]

/-- An inbound that is taken over from a document compiles to what it was. -/
theorem inbound_recovered {c : Inbound} (htag : Text.Tight c.tag) (h : c.SecretsGiven)
    (stream : Option Document.Stream) (fallback : String) :
    inbound (inboundOf c.protocol fallback (inbound c stream)) stream = inbound c stream := by
  have hsettings : inboundSettings (inboundOf c.protocol fallback (inbound c stream)) =
      inboundSettings c :=
    inboundSettings_recovered h rfl rfl fun hp => if_pos hp
  generalize hc : inboundOf c.protocol fallback (inbound c stream) = c' at hsettings
  have htag' : c'.tag = c.tag := by
    rw [← hc]
    exact tagOr_of_tight htag fallback
  have hlisten : (Text.nonBlank? c'.listen).getD usualListen =
      (Text.nonBlank? c.listen).getD usualListen := by
    rw [← hc]
    exact nonBlank?_getD (by decide)
  have hport : portOf c'.port = portOf c.port := by
    rw [← hc]
    exact portOf_toUInt32 _
  have hsniffing : c'.sniffing = c.sniffing := by
    rw [← hc]
    show (c.sniffing.map sniffing).map Document.Sniffing.enabled = c.sniffing
    cases c.sniffing <;> rfl
  have hprotocol : c'.protocol = c.protocol := by rw [← hc]; rfl
  rw [inbound, hsettings, htag', hlisten, hport, hsniffing, hprotocol]
  rfl

/-! ## Outbounds -/

theorem terminal_recovered {c : Terminal} (htag : Text.Tight c.tag) (fallback : String) :
    terminal ⟨tagOr (terminal c).tag fallback, c.protocol⟩ = terminal c := by
  simp only [terminal, tagOr_of_tight htag]

/-- The settings of a proxy outbound that is taken over are what they were. -/
theorem proxySettings_recovered {c c' : Proxy} {address : String} {port : UInt16}
    (hprotocol : c'.protocol = c.protocol)
    (hid : c'.id = textOf? "id" (firstOf "users"
      (firstOf (serversField c.protocol) (proxySettings c address port))))
    (hpassword : c'.password = textOf? "password"
      (firstOf (serversField c.protocol) (proxySettings c address port)))
    (hmethod : c'.method = textOf? "method"
      (firstOf (serversField c.protocol) (proxySettings c address port))) :
    proxySettings c' address port = proxySettings c address port := by
  cases hp : c.protocol with
  | vless =>
    have hid' : c'.id.getD "" = c.id.getD "" := by
      rw [hid, proxySettings, hp]
      exact textOf?_getD rfl
    rw [proxySettings, hprotocol.trans hp, proxySettings, hp, hid']
  | vmess =>
    have hid' : c'.id.getD "" = c.id.getD "" := by
      rw [hid, proxySettings, hp]
      exact textOf?_getD rfl
    rw [proxySettings, hprotocol.trans hp, proxySettings, hp, hid']
  | trojan =>
    have hpassword' : c'.password.getD "" = c.password.getD "" := by
      rw [hpassword, proxySettings, hp]
      exact textOf?_getD rfl
    rw [proxySettings, hprotocol.trans hp, proxySettings, hp, hpassword']
  | shadowsocks =>
    have hpassword' : c'.password.getD "" = c.password.getD "" := by
      rw [hpassword, proxySettings, hp]
      exact textOf?_getD rfl
    have hmethod' : c'.method = some (methodOf c.method) := by
      rw [hmethod, proxySettings, hp]
      exact textOf?_text rfl (methodOf_ne_empty _)
    rw [proxySettings, hprotocol.trans hp, proxySettings, hp, hpassword', hmethod',
      methodOf_methodOf]
  | socks => rw [proxySettings, hprotocol.trans hp, proxySettings, hp]
  | http => rw [proxySettings, hprotocol.trans hp, proxySettings, hp]

/-- The server that is written for a proxy outbound is found with its address
and port. -/
theorem firstOf_proxySettings (c : Proxy) (address : String) (port : UInt16) :
    (firstOf (serversField c.protocol) (proxySettings c address port)).get? "address" =
        some (.text address) ∧
      (firstOf (serversField c.protocol) (proxySettings c address port)).get? "port" =
        some (.nat port.toNat) := by
  rw [proxySettings]
  cases c.protocol <;> exact ⟨rfl, rfl⟩

/-- A proxy outbound that is taken over from a document compiles to what it
was, when nothing stands in for what it leaves blank. -/
theorem proxy_recovered {c : Proxy} (htag : Text.Tight c.tag)
    (stream : Option Document.Stream) (fallback : String) :
    proxy (proxyOf c.protocol fallback (proxy c none stream)) none stream =
      proxy c none stream := by
  obtain ⟨haddress, hport⟩ :=
    firstOf_proxySettings c (dialAddress c none) (dialPort c none)
  have hsettings : proxySettings (proxyOf c.protocol fallback (proxy c none stream))
      (dialAddress c none) (dialPort c none) =
        proxySettings c (dialAddress c none) (dialPort c none) :=
    proxySettings_recovered rfl rfl rfl rfl
  generalize hc : proxyOf c.protocol fallback (proxy c none stream) = c' at hsettings
  have htag' : c'.tag = c.tag := by
    rw [← hc]
    exact tagOr_of_tight htag fallback
  have hprotocol : c'.protocol = c.protocol := by rw [← hc]; rfl
  have haddress' : c'.address = dialAddress c none := by
    rw [← hc]
    exact textOf?_getD haddress
  have hport' : c'.port = (dialPort c none).toUInt32 := by
    rw [← hc]
    have hport' : (firstOf (serversField c.protocol) (proxy c none stream).settings).get? "port" =
        some (.nat (dialPort c none).toUInt32.toNat) := hport
    show (wordOf? "port" _).getD 0 = _
    rw [wordOf?_nat hport', Option.getD_some]
  have hdialAddress : dialAddress c' none = dialAddress c none := by
    rw [dialAddress, haddress', dialAddress]
    cases hblank : Text.nonBlank? c.address with
    | none => rfl
    | some a => simp [Text.nonBlank?_of_nonBlank? hblank]
  have hdialPort : dialPort c' none = dialPort c none := by
    have hown : (if c'.port = 0 then (0 : UInt32) else c'.port) = c'.port := by
      split
      case isTrue h => exact h.symm
      case isFalse => rfl
    show portOf (if c'.port = 0 then (0 : UInt32) else c'.port) = _
    rw [hown, hport', portOf_toUInt32]
  rw [proxy, hdialAddress, hdialPort, hsettings, htag', hprotocol]
  rfl

/-! ## Documents hold the settings -/

theorem fits_single {room : Nat} {name : String} {v : Json} (h : v.Fits room) :
    (Json.single name v).Fits (room + 1) :=
  fits_object (List.pairwise_singleton _ _) (by simpa using h)

theorem fits_client (u : User) {key : String} (secret : String) (h : key = "id" ∨ key = "password") :
    (client u key secret).Fits 1 := by
  have hlevel : ∀ l : UInt32, (Json.nat l.toNat).Fits 0 := fun l =>
    fits_nat 0 (Nat.lt_trans l.toNat_lt (by decide))
  rw [client]
  refine fits_object ?_ ?_
  · rcases h with rfl | rfl <;> cases u.level
    · exact ordered_of_names ["email", "id"] rfl (by decide)
    · exact ordered_of_names ["email", "id", "level"] rfl (by decide)
    · exact ordered_of_names ["email", "password"] rfl (by decide)
    · exact ordered_of_names ["email", "level", "password"] rfl (by decide)
  · intro f hf
    obtain rfl | hf := List.mem_cons.mp hf
    · exact fits_text _ _
    have hrest : f = (key, .text secret) ∨
        f ∈ u.level.toList.map fun l => ("level", Json.nat l.toNat) := by
      split at hf
      · exact List.mem_cons.mp hf
      · exact (List.mem_append.mp hf).symm.imp_left List.mem_singleton.mp
    obtain rfl | hrest := hrest
    · exact fits_text _ _
    · obtain ⟨l, -, rfl⟩ := List.mem_map.mp hrest
      exact hlevel l

theorem fits_idClients (users : List User) : (idClients users).Fits 2 := by
  refine fits_list fun v hv => ?_
  obtain ⟨u, -, hv⟩ := List.mem_filterMap.mp hv
  obtain ⟨id, -, rfl⟩ := Option.map_eq_some_iff.mp hv
  exact fits_client u id (.inl rfl)

theorem fits_passwordClients (users : List User) : (passwordClients users).Fits 2 := by
  refine fits_list fun v hv => ?_
  obtain ⟨u, -, hv⟩ := List.mem_filterMap.mp hv
  obtain ⟨password, -, rfl⟩ := Option.map_eq_some_iff.mp hv
  exact fits_client u password (.inr rfl)

theorem fits_accounts (users : List User) : (Json.list (accounts users)).Fits 2 := by
  refine fits_list fun v hv => ?_
  obtain ⟨u, -, hv⟩ := List.mem_filterMap.mp hv
  obtain ⟨password, -, rfl⟩ := Option.map_eq_some_iff.mp hv
  refine fits_object (ordered_of_names ["pass", "user"] rfl (by decide)) ?_
  simp [fits_text]

/-- Documents hold the settings of every inbound. -/
theorem settingsWritten_inbound (c : Inbound) : Document.SettingsWritten (inboundSettings c) := by
  suffices h : (inboundSettings c).isNull = false ∧ (inboundSettings c).Fits 3 from
    ⟨h.1, h.2.mono (by decide)⟩
  rw [inboundSettings]
  cases c.protocol with
  | vless =>
    refine ⟨rfl, fits_object (ordered_of_names ["clients", "decryption"] rfl (by decide)) ?_⟩
    simp [fits_text, fits_idClients]
  | vmess => exact ⟨rfl, fits_single (fits_idClients _)⟩
  | trojan => exact ⟨rfl, fits_single (fits_passwordClients _)⟩
  | shadowsocks =>
    cases c.users.findSome? User.password with
    | none =>
      refine ⟨rfl, fits_object (ordered_of_names ["method", "network"] rfl (by decide)) ?_⟩
      simp [fits_text]
    | some p =>
      refine ⟨rfl, fits_object (ordered_of_names ["method", "network", "password"] rfl
        (by decide)) ?_⟩
      simp [fits_text]
  | socks =>
    have haccounts := fits_accounts c.users
    cases h : accounts c.users with
    | nil =>
      refine ⟨rfl, fits_object (ordered_of_names ["auth", "udp"] rfl (by decide)) ?_⟩
      simp [fits_text, fits_bool]
    | cons a as =>
      rw [h] at haccounts
      refine ⟨rfl, fits_object (ordered_of_names ["accounts", "auth", "udp"] rfl (by decide)) ?_⟩
      simp [fits_text, fits_bool, haccounts]
  | http =>
    have haccounts := fits_accounts c.users
    cases h : accounts c.users with
    | nil => exact ⟨rfl, fits_object .nil (by simp)⟩
    | cons a as =>
      rw [h] at haccounts
      exact ⟨rfl, fits_single haccounts⟩
  | dokodemo => exact ⟨rfl, fits_single (fits_text _ _)⟩

theorem settingsWritten_terminal (p : TerminalProtocol) :
    Document.SettingsWritten (terminalSettings p) := by
  cases p with
  | freedom => exact ⟨rfl, fits_single (fits_text _ _)⟩
  | blackhole => exact ⟨rfl, fits_single (fits_single (fits_text _ _))⟩
  | dns => exact ⟨rfl, fits_object .nil (by simp)⟩

theorem fits_port (room : Nat) (port : UInt16) : (Json.nat port.toNat).Fits room :=
  fits_nat room (Nat.lt_trans port.toNat_lt (by decide))

theorem fits_vnext {address : String} {port : UInt16} {user : Json} (h : user.Fits 1) :
    (vnext address port user).Fits 5 := by
  refine fits_single (fits_list ?_)
  have husers : (Json.list [user]).Fits 2 := fits_list (by simpa using h)
  have hserver : (Json.object [("address", .text address), ("port", .nat port.toNat),
      ("users", .list [user])]).Fits 3 :=
    fits_object (ordered_of_names ["address", "port", "users"] rfl (by decide))
      (by simp [fits_text, fits_port, husers])
  simpa using hserver

theorem fits_server {address : String} {secrets : List (String × Json)} {port : UInt16}
    (hordered : Ordered ([("address", .text address)] ++ secrets ++ [("port", .nat port.toNat)]))
    (h : ∀ f ∈ secrets, f.2.Fits 0) : (server address secrets port).Fits 5 := by
  have hserver : (Json.object ([("address", .text address)] ++ secrets ++
      [("port", .nat port.toNat)])).Fits 1 := by
    refine fits_object hordered fun f hf => ?_
    simp only [List.mem_append, List.mem_singleton] at hf
    rcases hf with (rfl | hf) | rfl
    · exact fits_text _ _
    · exact h f hf
    · exact fits_port _ _
  have hlist : (Json.single "servers" (.list [.object ([("address", .text address)] ++ secrets ++
      [("port", .nat port.toNat)])])).Fits 3 :=
    fits_single (fits_list (by simpa using hserver))
  exact hlist.mono (by decide)

/-- Documents hold the settings of every proxy outbound. -/
theorem settingsWritten_proxy (c : Proxy) (address : String) (port : UInt16) :
    Document.SettingsWritten (proxySettings c address port) := by
  suffices h : (proxySettings c address port).isNull = false ∧
      (proxySettings c address port).Fits 5 from ⟨h.1, h.2.mono (by decide)⟩
  rw [proxySettings]
  cases c.protocol with
  | vless =>
    refine ⟨rfl, fits_vnext (fits_object (ordered_of_names ["encryption", "id"] rfl
      (by decide)) ?_)⟩
    simp [fits_text]
  | vmess =>
    refine ⟨rfl, fits_vnext (fits_object (ordered_of_names ["id", "security"] rfl
      (by decide)) ?_)⟩
    simp [fits_text]
  | trojan =>
    exact ⟨rfl, fits_server (ordered_of_names ["address", "password", "port"] rfl (by decide))
      (by simp [fits_text])⟩
  | shadowsocks =>
    exact ⟨rfl, fits_server (ordered_of_names ["address", "method", "password", "port"] rfl
      (by decide)) (by simp [fits_text])⟩
  | socks =>
    exact ⟨rfl, fits_server (ordered_of_names ["address", "port"] rfl (by decide)) (by simp)⟩
  | http =>
    exact ⟨rfl, fits_server (ordered_of_names ["address", "port"] rfl (by decide)) (by simp)⟩

end Compile
end ProxyPlan
