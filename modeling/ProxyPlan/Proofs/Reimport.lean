/-
ProxyPlan.Proofs.Reimport — documents from elsewhere settle after one round.

Whatever a document says, taking it over puts it in order: tags are trimmed or
made up, empty secrets count as missing, and no node is assigned to a server.
What cannot be put in order is reported, and so a draft of which nothing has
been reported is restorable (`Draft.Orderly`). The document that it compiles to
is therefore one that the next round does not change.
-/
import ProxyPlan.Proofs.WrittenDocument

namespace ProxyPlan

open Compile

/-! ## One more node -/

/-- A node that is in order leaves a restorable graph restorable. -/
theorem Restorable.add {nodes : List Node} {n : Node} (h : Restorable nodes)
    (hserver : n.server = none)
    (htight : n.kind ≠ .routing → ∀ tag, n.tag? = some tag → Text.Tight tag)
    (hasked : ∀ c, n.routing? = some c → ∀ tag, c.predicates.inboundTag? = some tag →
      ∃ m ∈ nodes, ∃ i, m.inbound? = some i ∧ i.tag = tag)
    (hgiven : ∀ c, n.inbound? = some c → c.SecretsGiven) : Restorable (nodes ++ [n]) where
  ungrouped := by
    refine List.forall_mem_append.mpr ⟨h.ungrouped, List.forall_mem_singleton.mpr ?_⟩
    rw [Node.group, hserver]
    rfl
  tight := List.forall_mem_append.mpr ⟨h.tight, List.forall_mem_singleton.mpr htight⟩
  asked := by
    have hthere : ∀ tag, (∃ m ∈ nodes, ∃ i, m.inbound? = some i ∧ i.tag = tag) →
        ∃ m ∈ nodes ++ [n], ∃ i, m.inbound? = some i ∧ i.tag = tag := by
      rintro tag ⟨m, hm, hi⟩
      exact ⟨m, List.mem_append_left _ hm, hi⟩
    refine List.forall_mem_append.mpr ⟨fun m hm c hc tag htag => ?_,
      List.forall_mem_singleton.mpr fun c hc tag htag => ?_⟩
    · exact hthere tag (h.asked m hm c hc tag htag)
    · exact hthere tag (hasked c hc tag htag)
  given := List.forall_mem_append.mpr ⟨h.given, List.forall_mem_singleton.mpr hgiven⟩

namespace Import

/-! ## What is read is in order -/

theorem tight_tagOr (tag : String) {fallback : String} (h : Text.Tight fallback) :
    Text.Tight (tagOr tag fallback) := by
  rw [tagOr]
  cases htag : Text.nonBlank? tag with
  | none => exact h
  | some trimmed => exact Text.tight_of_nonBlank? htag

theorem textOf?_ne_empty (name : String) (v : Json) : textOf? name v ≠ some "" := by
  intro h
  have hfiltered := (Option.filter_eq_some_iff.mp h).2
  simp at hfiltered

/-- The secrets of users that are taken over are given or missing. -/
theorem secretsGiven_inboundOf (protocol : InboundProtocol) (fallback : String)
    (i : Document.Inbound) : (inboundOf protocol fallback i).SecretsGiven := by
  intro u hu
  have husers : u ∈ usersOf protocol i.settings := hu
  cases protocol with
  | vless | vmess | trojan =>
    obtain ⟨v, -, rfl⟩ := List.mem_map.mp husers
    exact ⟨textOf?_ne_empty _ v, textOf?_ne_empty _ v⟩
  | socks | http =>
    obtain ⟨v, -, rfl⟩ := List.mem_map.mp husers
    exact ⟨by simp [accountUser], textOf?_ne_empty _ v⟩
  | shadowsocks =>
    obtain ⟨p, hp, rfl⟩ := List.mem_map.mp husers
    refine ⟨by simp, fun hempty => textOf?_ne_empty "password" i.settings ?_⟩
    exact (Option.mem_toList.mp hp).trans hempty
  | dokodemo => cases husers

namespace Draft

variable {d d' : Draft}

/-! ## Orderly drafts -/

/-- As long as nothing has been said, the draft can be compiled and taken over
again. -/
structure Orderly (d : Draft) : Prop where
  made : d.Made
  restorable : d.warnings = [] → Restorable d.nodes

theorem orderly_empty : empty.Orderly where
  made := made_empty
  restorable _ := by constructor <;> simp [empty]

/-- Whoever is told something need not expect anything. -/
theorem Orderly.warn (h : d.Orderly) (w : Warning) : (d.warn w).Orderly where
  made := h.made
  restorable hsilent := by
    rw [Draft.warn] at hsilent
    simp at hsilent

/-- A node that is no rule stays in order if its tag is and its secrets are. -/
theorem Orderly.add (h : d.Orderly) {role : Role}
    (hnodes : d'.nodes = d.nodes ++ [d.next role])
    (hwarnings : d'.warnings = [] → d.warnings = []) (hkind : role.kind ≠ .routing)
    (htight : ∀ tag, role.tag? = some tag → Text.Tight tag)
    (hgiven : ∀ c, role = .inbound c → c.SecretsGiven) : d'.Orderly where
  made := h.made.grow role hnodes
  restorable hsilent := by
    rw [hnodes]
    refine (h.restorable (hwarnings hsilent)).add rfl (fun _ => htight) (fun c hc => ?_)
      fun c hc => hgiven c (Node.inbound?_eq_some.mp hc)
    exact absurd (Node.kind_of_routing? hc) hkind

theorem Orderly.addInbound (h : d.Orderly) (i : Document.Inbound) : (d.addInbound i).Orderly := by
  rw [Draft.addInbound]
  split
  case h_1 protocol _ =>
    refine h.add rfl id (by simp [Role.kind]) (fun tag htag => ?_) fun c hc => ?_
    · obtain rfl := Option.some.inj htag
      exact tight_tagOr i.tag (tight_numberedId _ _)
    · obtain rfl := Role.inbound.inj hc
      exact secretsGiven_inboundOf _ _ _
  case h_2 => exact h.warn _

theorem Orderly.addOutbound (h : d.Orderly) (o : Document.Outbound) :
    (d.addOutbound o).Orderly := by
  rw [Draft.addOutbound]
  split
  case h_1 protocol _ _ =>
    refine h.add rfl id (by simp [Role.kind]) (fun tag htag => ?_) (by simp)
    obtain rfl := Option.some.inj htag
    exact tight_tagOr o.tag (tight_numberedId _ _)
  case h_2 protocol _ _ =>
    refine h.add rfl id (by simp [Role.kind]) (fun tag htag => ?_) (by simp)
    obtain rfl := Option.some.inj htag
    exact tight_tagOr o.tag (tight_numberedId _ _)
  case h_3 => exact h.warn _

theorem Orderly.addBalancer (h : d.Orderly) (b : Document.Balancer) :
    (d.addBalancer b).Orderly := by
  obtain ⟨es, hgraph, hwarnings, -⟩ := addBalancer_spec b d
  refine h.add (congrArg Graph.nodes hgraph) (fun hsilent => ?_) (by simp [Role.kind])
    (fun tag htag => ?_) (by simp)
  · rw [hwarnings] at hsilent
    exact (List.append_eq_nil_iff.mp hsilent).1
  · obtain rfl := Option.some.inj htag
    exact tight_tagOr b.tag (tight_numberedId _ _)

/-- A rule asks for an inbound that is there, or this is said. -/
theorem exists_asked (hrestorable : Restorable d.nodes) {number : Nat} {r : Document.Rule}
    (hsaid : d.unknownInbounds number (r.inboundTag.getD []) = []) {tag : String}
    (htag : (predicatesOf r).inboundTag? = some tag) :
    ∃ m ∈ d.nodes, ∃ i, m.inbound? = some i ∧ i.tag = tag := by
  obtain ⟨raw, hraw, htrimmed⟩ := Option.bind_eq_some_iff.mp htag
  have hlisted : raw ∈ r.inboundTag.getD [] := List.mem_of_mem_head? hraw
  have hfound : (d.inbound? raw).isSome = true := by
    have hknown := List.filter_eq_nil_iff.mp (List.map_eq_nil_iff.mp hsaid) raw hlisted
    simpa [Option.isSome_iff_ne_none] using hknown
  obtain ⟨id, hid⟩ := Option.isSome_iff_exists.mp hfound
  obtain ⟨m, hm, -, hkind, hmtag⟩ := of_latest? hid
  have hinbound : m.kind = .inbound := of_decide_eq_true hkind
  obtain ⟨i, hi⟩ : ∃ i, m.inbound? = some i := by
    obtain ⟨id, position, role, server⟩ := m
    cases role <;> simp_all [Node.kind, Role.kind, Node.inbound?]
  refine ⟨m, hm, i, hi, ?_⟩
  -- the tag of a node is trimmed, so the one that is asked for is so already
  have htight : Text.Tight raw := by
    refine hrestorable.tight m hm ?_ raw hmtag
    rw [hinbound]
    decide
  have hsame : tag = raw := Option.some.inj (htrimmed.symm.trans htight.nonBlank?)
  rw [Node.tag?_of_inbound? hi] at hmtag
  exact (Option.some.inj hmtag).trans hsame.symm

theorem Orderly.addRule (h : d.Orderly) (index : Nat) (r : Document.Rule) :
    (d.addRule true index r).Orderly := by
  rw [Draft.addRule]
  split
  case h_1 w _ => exact h.warn w
  case h_2 target _ =>
    obtain ⟨into, out, hled, -⟩ := lead_spec
      { d with
        rules := d.rules + 1
        warnings := d.warnings ++ d.unknownInbounds (index + 1) (r.inboundTag.getD []) }
      index r (d.sources (r.inboundTag.getD [])) target
    simp only [hled]
    constructor
    case made => exact h.made.grow _ rfl
    case restorable =>
      intro hsilent
      obtain ⟨hquiet, hsaid⟩ := List.append_eq_nil_iff.mp hsilent
      have hrestorable := h.restorable hquiet
      refine hrestorable.add rfl (fun hkind => absurd rfl hkind) (fun c hc tag htag => ?_)
        (by simp [Node.inbound?, next])
      obtain rfl := Role.routing.inj (Node.routing?_eq_some.mp hc)
      exact exists_asked hrestorable hsaid htag

/-- What every step and every warning keeps, a list of entries keeps. -/
theorem addAll_keeps {α : Type} {c : Json.Codec α} (listing : Listing)
    {add : Nat → α → Draft → Draft} {P : Draft → Prop} (hwarn : ∀ d w, P d → P (d.warn w))
    (hadd : ∀ index x d, P d → P (add index x d)) (index : Nat) (entries : List Json) (h : P d) :
    P (addAll c listing add index entries d) := by
  induction entries generalizing index d with
  | nil => exact h
  | cons entry rest ih =>
    rw [addAll]
    refine ih (index + 1) ?_
    split
    · exact hadd index _ d h
    · exact hwarn d _ h

end Draft

/-- Every document gives an orderly draft. -/
theorem orderly_draft {o : Options} (ho : o.ruleNodes = true) (doc : Json) :
    (draft o doc).Orderly := by
  have hwarn : ∀ d w, Draft.Orderly d → (d.warn w).Orderly := fun d w h => h.warn w
  rw [draft, ho]
  refine Draft.addAll_keeps .rules hwarn (fun index r d h => h.addRule index r) 0 _ ?_
  refine Draft.addAll_keeps .balancers hwarn (fun _ b d h => h.addBalancer b) 0 _ ?_
  refine Draft.addAll_keeps .outbounds hwarn (fun _ out d h => h.addOutbound out) 0 _ ?_
  exact Draft.addAll_keeps .inbounds hwarn (fun _ i d h => h.addInbound i) 0 _ Draft.orderly_empty

/-- What is handed over is the draft of the document. -/
theorem outcome_eq {text : String} {p : Options} {out : Outcome} {doc : Json}
    (h : config text p = .ok out) (hdoc : objectOf text = .ok doc) :
    out = (draft p doc).outcome p := by
  rw [config, hdoc] at h
  simp only [bind, Except.bind] at h
  split at h
  · cases h
  · exact (Except.ok.inj h).symm

theorem exists_draft {text : String} {p : Options} {out : Outcome} (h : config text p = .ok out) :
    ∃ doc, out = (draft p doc).outcome p := by
  cases hdoc : objectOf text with
  | error e =>
    rw [config, hdoc] at h
    cases h
  | ok doc => exact ⟨doc, outcome_eq h hdoc⟩

end Import

/-! ## One round -/

/-- A document that is taken over without a warning, whatever it is, compiles to
one that taking over and compiling does not change any more: it is taken over
without a warning as well, and its rules keep their order unless there are more
of them than priorities. -/
theorem config_compile_config {text : String} {p : Import.Options} {out : Import.Outcome}
    (h : Import.config text p = .ok out) (hp : p.ruleNodes = true)
    (hwarnings : out.summary.warnings = []) (o : Compile.Options) (servers : List Server) :
    ∃ d again rules, (Topology.mk out.nodes out.edges servers).compile o = [⟨soleFile, d⟩] ∧
      Import.config (Output.file ⟨soleFile, d⟩).content p = .ok again ∧
      again.summary.warnings = [] ∧
      (Topology.mk again.nodes again.edges servers).compile o =
        [⟨soleFile, { d with routing := { d.routing with rules := rules } }⟩] ∧
      rules.Perm d.routing.rules ∧
      (d.routing.rules.length ≤ 2 ^ 32 →
        (Topology.mk again.nodes again.edges servers).compile o = [⟨soleFile, d⟩]) := by
  obtain ⟨doc, rfl⟩ := Import.exists_draft h
  have horderly := Import.orderly_draft hp doc
  have hnormal : (plainDocument (Import.draft p doc).graph o).Normal :=
    normal_plainDocument (horderly.restorable hwarnings) o
  obtain ⟨again, rules, hconfig, hsilent, hperm, hfew, hcompile⟩ :=
    Import.compile_config_written hnormal rfl rfl hp soleFile servers
  have honce := Import.compile_outcome horderly.made p servers o
  refine ⟨_, again, rules, honce, hconfig, hsilent, hcompile, hperm, fun hlength => ?_⟩
  rw [hcompile, hfew hlength]

/-! ## An instance -/

/-- A document whose inbound has a padded tag and a client without a secret, and
whose outbound has no tag. -/
def padded : String :=
  "\x7b\"inbounds\": [\x7b\"port\": 443, \"protocol\": \"vless\", \"tag\": \" in \", " ++
    "\"settings\": \x7b\"clients\": [\x7b\"id\": \"\"\x7d]\x7d\x7d], " ++
    "\"outbounds\": [\x7b\"protocol\": \"freedom\"\x7d], " ++
    "\"routing\": \x7b\"rules\": [\x7b\"inboundTag\": [\"in\"], " ++
    "\"outboundTag\": \"outbound-terminal-2\"\x7d]\x7d\x7d"

theorem config_compile_config_padded :
    ∃ out d again, Import.config padded .usual = .ok out ∧ out.summary.warnings = [] ∧
      (Topology.mk out.nodes out.edges []).compile .usual = [⟨soleFile, d⟩] ∧
      Import.config (Output.file ⟨soleFile, d⟩).content .usual = .ok again ∧
      again.summary.warnings = [] ∧
      (Topology.mk again.nodes again.edges []).compile .usual = [⟨soleFile, d⟩] := by
  have hread : (Import.config padded .usual).toOption.map (fun out =>
      (out.summary.warnings, ((Topology.mk out.nodes out.edges []).compile .usual).map
        fun c => c.document.routing.rules.length)) = some ([], [1]) := by
    decide +kernel
  cases hout : Import.config padded .usual with
  | error e =>
    rw [hout] at hread
    cases hread
  | ok out =>
    rw [hout] at hread
    obtain ⟨hwarnings, hcounts⟩ := Prod.mk.inj (Option.some.inj hread)
    obtain ⟨d, again, rules, honce, hagain, hsilent, -, -, hfew⟩ :=
      config_compile_config hout rfl hwarnings .usual []
    have hlength : d.routing.rules.length = 1 := by
      rw [honce] at hcounts
      exact (List.cons.inj hcounts).1
    exact ⟨out, d, again, rfl, hwarnings, honce, hagain, hsilent, hfew (by omega)⟩

end ProxyPlan
