/-
ProxyPlan.Proofs.FreshTags — which made-up tags are fresh.

An entry that gives no tag is called by something else: a rule by its number, any other entry by
the identity of its node. Of what is made up in this way nothing is made up twice
(`Taken.madeUp_nodup`), since identities are numbered through and `rule` is the name of no kind of
node. But it is not compared with the tags that other entries give. So with all given tags
distinct, a tag is shared just when one that is made up is also given (`config_freshTags`), and
this does happen (`namesake_shares`).

Which of the tags in a graph are made up cannot be seen from the graph. So its nodes are taken
together with the entries that they are made of.
-/
import ProxyPlan.Proofs.Accounts
import ProxyPlan.Proofs.WellLinked

namespace ProxyPlan

/-! ## Lists -/

/-- If what is given is distinct and so is what is made up, they are so together just when nothing
is made up for one that another one is given. -/
theorem nodup_getD_iff {α β : Type} {given : α → Option β} {made : α → β} {xs : List α}
    (hgiven : (xs.filterMap given).Nodup) (hmade : (xs.map made).Nodup) :
    (xs.map fun x => (given x).getD (made x)).Nodup ↔
      ∀ x ∈ xs, given x = none → made x ∉ xs.filterMap given := by
  constructor
  · intro hall x hx hnone hmem
    obtain ⟨y, hy, hsome⟩ := List.mem_filterMap.mp hmem
    obtain rfl : x = y := List.inj_on_of_nodup_map hall hx hy (by rw [hnone, hsome]; rfl)
    rw [hnone] at hsome
    cases hsome
  · intro hfresh
    have hapart : ∀ a ∈ xs, ∀ b ∈ xs, given a = none → ∀ t, given b = some t → made a ≠ t :=
      fun a ha b hb hnone t hsome heq =>
        hfresh a ha hnone (List.mem_filterMap.mpr ⟨b, hb, hsome.trans (congrArg some heq.symm)⟩)
    rw [List.Nodup, List.pairwise_filterMap] at hgiven
    rw [List.Nodup, List.pairwise_map] at hmade ⊢
    refine (hgiven.and hmade).imp_of_mem fun {a b} ha hb hab => ?_
    obtain ⟨hgiven, hmade⟩ := hab
    cases hga : given a with
    | none =>
      cases hgb : given b with
      | none => exact hmade
      | some t => exact hapart a ha b hb hga t hgb
    | some s =>
      cases hgb : given b with
      | none => exact (hapart b hb a ha hgb s hga).symm
      | some t => exact hgiven s hga t hgb

namespace Import

/-! ## Entries -/

/-- An entry of one of the lists of a document, with its place there. -/
structure Entry where
  listing : Listing
  placed : Json × Nat

namespace Entry

/-- The trimmed tag that an entry is given, if it can be read and has one that is not blank. -/
def given? (x : Entry) : Option String :=
  let value := x.placed.1
  match x.listing with
  | .inbounds =>
    (Document.Inbound.codec.readValue value).toOption.bind fun i => Text.nonBlank? i.tag
  | .outbounds =>
    (Document.Outbound.codec.readValue value).toOption.bind fun o => Text.nonBlank? o.tag
  | .balancers =>
    (Document.Balancer.codec.readValue value).toOption.bind fun b => Text.nonBlank? b.tag
  | .rules =>
    (Document.Rule.codec.readValue value).toOption.bind fun r => r.ruleTag.bind Text.nonBlank?

/-- What is made up for an entry whose node has this identity. -/
def madeUp (x : Entry) (id : String) : String :=
  if x.listing = .rules then "rule-" ++ toString (x.placed.2 + 1) else id

end Entry

/-- All entries of a document, list by list. -/
def entriesOf (doc : Json) : List Entry :=
  [Listing.inbounds, .outbounds, .balancers, .rules].flatMap fun l =>
    (l.entries doc).zipIdx.map (Entry.mk l)

/-- The trimmed tags that are not blank, of all the entries of a document. -/
def givenTags (doc : Json) : List String := (entriesOf doc).filterMap Entry.given?

/-- No two entries of a list have the same place. -/
theorem entriesOf_apart (doc : Json) :
    (entriesOf doc).Pairwise fun x y => x.listing = y.listing → x.placed.2 ≠ y.placed.2 := by
  have hlist : ∀ l : Listing, ((l.entries doc).zipIdx.map (Entry.mk l)).Pairwise fun x y =>
      x.listing = y.listing → x.placed.2 ≠ y.placed.2 := by
    intro l
    rw [List.pairwise_map]
    have hplaces : ((l.entries doc).zipIdx.map Prod.snd).Nodup := by
      rw [List.zipIdx_map_snd]
      exact List.nodup_range'
    refine (List.pairwise_map.mp hplaces).imp fun hne _ => ?_
    exact hne
  have hlists : [Listing.inbounds, .outbounds, .balancers, .rules].Nodup := by decide
  rw [entriesOf, List.pairwise_flatMap]
  refine ⟨fun l _ => hlist l, hlists.imp fun {l m} hne x hx y hy heq => ?_⟩
  obtain ⟨_, -, rfl⟩ := List.mem_map.mp hx
  obtain ⟨_, -, rfl⟩ := List.mem_map.mp hy
  exact absurd heq hne

/-! ## Tags of nodes -/

theorem tight_ruleName (number : Nat) : Text.Tight ("rule-" ++ toString number) := by
  have hword : "rule".toList = 'r' :: "ule".toList := by decide
  exact tight_numbered hword (by decide) number

theorem nonBlank?_tagOr (tag : String) {fallback : String} (h : Text.Tight fallback) :
    Text.nonBlank? (tagOr tag fallback) = some ((Text.nonBlank? tag).getD fallback) :=
  (tight_tagOr tag h).nonBlank?

theorem nonBlank?_ruleTag (number : Nat) (r : Document.Rule) :
    Text.nonBlank? (Draft.ruleTag number r) =
      some ((r.ruleTag.bind Text.nonBlank?).getD ("rule-" ++ toString number)) := by
  have hmade := (tight_ruleName number).nonBlank?
  rw [Draft.ruleTag]
  cases r.ruleTag with
  | none => exact hmade
  | some raw =>
    cases hblank : Text.blank raw with
    | true => simpa [Option.filter_some, Text.nonBlank?, hblank] using hmade
    | false => simp [Option.filter_some, Text.nonBlank?, hblank]

/-- A node that is no rule carries the tag that its entry is given, or its identity. -/
theorem plainTag?_of_tagOr {x : Entry} {n : Node} {tag : String} (hlist : x.listing ≠ .rules)
    (hgiven : x.given? = Text.nonBlank? tag) (htag : n.tag? = some (tagOr tag n.id))
    (hid : Text.Tight n.id) : Audit.plainTag? n = some (x.given?.getD (x.madeUp n.id)) := by
  rw [Audit.plainTag?, htag, Option.bind_some, nonBlank?_tagOr tag hid, hgiven, Entry.madeUp,
    if_neg hlist]

/-- A node carries the tag that its entry is given, or what is made up for it. -/
theorem Becomes.plainTag? {x : Entry} {n : Node} (h : Becomes x.listing x.placed n)
    (hid : Text.Tight n.id) : Audit.plainTag? n = some (x.given?.getD (x.madeUp n.id)) := by
  obtain ⟨l, value, index⟩ := x
  cases h with
  | inbound i protocol read known role =>
    have htag : n.tag? = some (tagOr i.tag n.id) := congrArg Role.tag? role
    exact plainTag?_of_tagOr (by simp) (by simp [Entry.given?, read, Except.toOption]) htag hid
  | terminal o protocol read known role =>
    have htag : n.tag? = some (tagOr o.tag n.id) := congrArg Role.tag? role
    exact plainTag?_of_tagOr (by simp) (by simp [Entry.given?, read, Except.toOption]) htag hid
  | proxy o protocol read known role =>
    have htag : n.tag? = some (tagOr o.tag n.id) := congrArg Role.tag? role
    exact plainTag?_of_tagOr (by simp) (by simp [Entry.given?, read, Except.toOption]) htag hid
  | balancer b read role =>
    have htag : n.tag? = some (tagOr b.tag n.id) := congrArg Role.tag? role
    exact plainTag?_of_tagOr (by simp) (by simp [Entry.given?, read, Except.toOption]) htag hid
  | rule r read role =>
    have htag : n.tag? = some (Draft.ruleTag (index + 1) r) := congrArg Role.tag? role
    have hgiven : Entry.given? ⟨.rules, value, index⟩ = r.ruleTag.bind Text.nonBlank? := by
      simp [Entry.given?, read, Except.toOption]
    rw [Audit.plainTag?, htag, Option.bind_some, nonBlank?_ruleTag, hgiven, Entry.madeUp,
      if_pos rfl]

/-! ## Nodes and their entries -/

/-- The nodes are made of these entries of the document, one of each, and are numbered. -/
structure Taken (doc : Json) (xs : List Entry) (nodes : List Node) : Prop where
  entries : xs.Sublist (entriesOf doc)
  becomes : List.Forall₂ (fun x n => Becomes x.listing x.placed n) xs nodes
  numbered : ∀ n ∈ nodes, ∃ number, n.id = numberedId n.kind number
  ids : (nodes.map Placed.id).Nodup

namespace Taken

variable {doc : Json} {xs : List Entry} {nodes : List Node}

theorem fst_zip (h : Taken doc xs nodes) : (xs.zip nodes).map Prod.fst = xs :=
  List.map_fst_zip h.becomes.length_eq.le

theorem snd_zip (h : Taken doc xs nodes) : (xs.zip nodes).map Prod.snd = nodes :=
  List.map_snd_zip h.becomes.length_eq.ge

theorem filterMap_zip (h : Taken doc xs nodes) :
    ((xs.zip nodes).filterMap fun p => p.1.given?) = xs.filterMap Entry.given? := by
  conv_rhs => rw [← h.fst_zip, List.filterMap_map]
  rfl

theorem plainTags (h : Taken doc xs nodes) : nodes.filterMap Audit.plainTag? =
    (xs.zip nodes).map fun p => p.1.given?.getD (p.1.madeUp p.2.id) := by
  conv_lhs => rw [← h.snd_zip, List.filterMap_map]
  rw [← List.filterMap_eq_map]
  refine List.filterMap_congr fun p hp => ?_
  obtain ⟨number, hid⟩ := h.numbered p.2 (List.of_mem_zip hp).2
  exact ((List.forall₂_iff_zip.mp h.becomes).2 hp).plainTag? (hid ▸ tight_numberedId _ _)

/-- The name of a rule is no identity. -/
theorem ruleName_ne (h : Taken doc xs nodes) {n : Node} (hn : n ∈ nodes) (number : Nat) :
    "rule-" ++ toString number ≠ n.id := by
  obtain ⟨other, hid⟩ := h.numbered n hn
  intro heq
  have hword : "rule" = n.kind.name := (numbered_inj (heq.trans hid)).1
  revert hword
  cases n.kind <;> decide

/-- Nothing is made up twice. -/
theorem madeUp_nodup (h : Taken doc xs nodes) :
    ((xs.zip nodes).map fun p => p.1.madeUp p.2.id).Nodup := by
  have hplaces : (xs.zip nodes).Pairwise fun p q =>
      p.1.listing = q.1.listing → p.1.placed.2 ≠ q.1.placed.2 := by
    have happart := (entriesOf_apart doc).sublist h.entries
    rw [← h.fst_zip, List.pairwise_map] at happart
    exact happart
  have hids : (xs.zip nodes).Pairwise fun p q => p.2.id ≠ q.2.id := by
    have happart := List.pairwise_map.mp h.ids
    rw [← h.snd_zip, List.pairwise_map] at happart
    exact happart
  rw [List.Nodup, List.pairwise_map]
  refine (hplaces.and hids).imp_of_mem fun {p q} hp hq hpq => ?_
  obtain ⟨hplace, hid⟩ := hpq
  have hp' := (List.of_mem_zip hp).2
  have hq' := (List.of_mem_zip hq).2
  rw [Entry.madeUp, Entry.madeUp]
  split
  case isTrue hpl =>
    split
    case isTrue hql =>
      intro heq
      have hnumber : p.1.placed.2 + 1 = q.1.placed.2 + 1 :=
        (numbered_inj (v := "rule") (w := "rule") heq).2
      exact hplace (hpl.trans hql.symm) (Nat.succ_injective hnumber)
    case isFalse => exact h.ruleName_ne hq' _
  case isFalse =>
    split
    case isTrue => exact (h.ruleName_ne hp' _).symm
    case isFalse => exact hid

/-- With all given tags distinct, two nodes carry one tag just when what is made up for one of
them is given to another. -/
theorem nodup_plainTags_iff (h : Taken doc xs nodes) (hgiven : (givenTags doc).Nodup) :
    (nodes.filterMap Audit.plainTag?).Nodup ↔
      ∀ p ∈ xs.zip nodes, p.1.given? = none → p.1.madeUp p.2.id ∉ xs.filterMap Entry.given? := by
  have htaken : ((xs.zip nodes).filterMap fun p => p.1.given?).Nodup := by
    rw [h.filterMap_zip]
    exact hgiven.sublist (h.entries.filterMap Entry.given?)
  rw [h.plainTags, nodup_getD_iff htaken h.madeUp_nodup, h.filterMap_zip]

end Taken

/-! ## The whole document -/

theorem InOrder.exists_entries {doc : Json} {l : Listing} {nodes : List Node}
    (h : InOrder doc l nodes) :
    ∃ xs : List Entry, xs.Sublist ((l.entries doc).zipIdx.map (Entry.mk l)) ∧
      List.Forall₂ (fun x n => Becomes x.listing x.placed n) xs nodes := by
  obtain ⟨taken, hsub, hmade⟩ := h
  exact ⟨taken.map (Entry.mk l), hsub.map _, List.forall₂_map_left_iff.mpr hmade⟩

theorem Arranged.exists_entries {doc : Json} {nodes : List Node} (h : Arranged doc nodes) :
    ∃ xs : List Entry, xs.Sublist (entriesOf doc) ∧
      List.Forall₂ (fun x n => Becomes x.listing x.placed n) xs nodes := by
  obtain ⟨inbounds, outbounds, balancers, rules, rfl, hi, ho, hb, hr⟩ := h
  obtain ⟨is, hisub, hi⟩ := hi.exists_entries
  obtain ⟨os, hosub, ho⟩ := ho.exists_entries
  obtain ⟨bs, hbsub, hb⟩ := hb.exists_entries
  obtain ⟨rs, hrsub, hr⟩ := hr.exists_entries
  refine ⟨is ++ os ++ bs ++ rs, ?_, List.rel_append (List.rel_append (List.rel_append hi ho) hb) hr⟩
  have hall := ((hisub.append hosub).append hbsub).append hrsub
  simpa [entriesOf] using hall

/-- The nodes of what is handed over are made of entries of the document. -/
theorem exists_taken (o : Options) (doc : Json) :
    ∃ xs, Taken doc xs ((draft o doc).outcome o).nodes := by
  have hsound := sound_draft o doc
  have hplaced : ((draft o doc).outcome o).nodes.map Node.unplaced = (draft o doc).nodes :=
    congrArg Graph.nodes (unplaced_outcome hsound.made o)
  have harranged : Arranged doc ((draft o doc).outcome o).nodes := by
    refine Arranged.of_unplaced ?_
    rw [hplaced]
    exact arranged_draft o doc
  obtain ⟨xs, hentries, hbecomes⟩ := harranged.exists_entries
  refine ⟨xs, hentries, hbecomes, fun n hn => ?numbered, ?ids⟩
  case numbered =>
    have hmem : n.unplaced ∈ (draft o doc).nodes := by
      rw [← hplaced]
      exact List.mem_map_of_mem hn
    obtain ⟨number, -, hnode⟩ := hsound.made n.unplaced hmem
    exact ⟨number, congrArg Placed.id hnode⟩
  case ids =>
    have hids := hsound.ids
    rw [← hplaced, List.map_map] at hids
    exact hids

/-- The nodes of a document that is taken over are made of entries of its lists, whose tags they
carry where these are given. What is made up for the others is made up once each. So if all given
tags are distinct, no tag is shared just when nothing is made up for an entry that is given to
another one. -/
theorem config_freshTags {text : String} {o : Options} {out : Outcome}
    (h : config text o = .ok out) :
    ∃ doc, objectOf text = .ok doc ∧ (∃ xs, Taken doc xs out.nodes) ∧
      ∀ xs, Taken doc xs out.nodes →
        (out.nodes.filterMap Audit.plainTag? =
          (xs.zip out.nodes).map fun p => p.1.given?.getD (p.1.madeUp p.2.id)) ∧
        ((xs.zip out.nodes).map fun p => p.1.madeUp p.2.id).Nodup ∧
        ((givenTags doc).Nodup →
          ((Audit.check ⟨out.nodes, out.edges⟩).hasCode "S001" = false ↔
            ∀ p ∈ xs.zip out.nodes, p.1.given? = none →
              p.1.madeUp p.2.id ∉ xs.filterMap Entry.given?)) := by
  cases hdoc : objectOf text with
  | error e =>
    rw [config, hdoc] at h
    cases h
  | ok doc =>
    obtain rfl := outcome_eq h hdoc
    refine ⟨doc, rfl, exists_taken o doc, fun xs htaken => ?_⟩
    refine ⟨htaken.plainTags, htaken.madeUp_nodup, fun hgiven => ?_⟩
    rw [Audit.not_s001_iff]
    exact htaken.nodup_plainTags_iff hgiven

/-! ### Two documents -/

/-- An inbound and a rule have no tags. The outbound has the tag that would be made up for a
second rule. -/
def sparse : Json :=
  .object [
    ("inbounds", .list [inboundEntry "" 1080, inboundEntry " in " 1081]),
    ("outbounds", .list [outboundEntry "rule-2" "freedom"]),
    ("routing", .object [("rules", .list [linkEntry ["in"] "rule-2"])])]

theorem config_freshTags_sparse :
    ∃ out, config (sparse.toLines ++ "\n") .usual = .ok out ∧
      givenTags sparse.settle = ["in", "rule-2"] ∧
      out.nodes.filterMap Audit.plainTag? = ["inbound-1", "in", "rule-2", "rule-1"] ∧
      (Audit.check ⟨out.nodes, out.edges⟩).hasCode "S001" = false := by
  have hplain : sparse.Plain := Json.plain_naturals [1080, 1081] rfl (by decide)
  have hread : objectOf (sparse.toLines ++ "\n") = .ok sparse.settle :=
    objectOf_file hplain (by decide)
  have hout := config_eq (o := .usual) hread rfl
  obtain ⟨doc, hdoc, ⟨xs, htaken⟩, hall⟩ := config_freshTags hout
  obtain rfl : doc = sparse.settle := Except.ok.inj (hdoc.symm.trans hread)
  obtain ⟨-, -, hshared⟩ := hall xs htaken
  have hgiven : givenTags sparse.settle = ["in", "rule-2"] := by decide +kernel
  have htags : ((draft .usual sparse.settle).outcome .usual).nodes.filterMap Audit.plainTag? =
      ["inbound-1", "in", "rule-2", "rule-1"] := by decide +kernel
  have hfresh : ∀ x ∈ entriesOf sparse.settle,
      ∀ n ∈ ((draft .usual sparse.settle).outcome .usual).nodes,
        x.given? = none → x.madeUp n.id ∉ givenTags sparse.settle := by decide +kernel
  refine ⟨_, hout, hgiven, htags, (hshared (by rw [hgiven]; decide)).mpr fun p hp hnone hmem => ?_⟩
  obtain ⟨hx, hn⟩ := List.of_mem_zip hp
  exact hfresh p.1 (htaken.entries.subset hx) p.2 hn hnone
    ((htaken.entries.filterMap Entry.given?).subset hmem)

/-- An outbound has the tag that is made up for the inbound, which has none. -/
def namesake : Json :=
  .object [("inbounds", .list [inboundEntry "" 1080]),
    ("outbounds", .list [outboundEntry "inbound-1" "freedom"])]

theorem namesake_shares :
    ∃ out, config (namesake.toLines ++ "\n") .usual = .ok out ∧
      objectOf (namesake.toLines ++ "\n") = .ok namesake.settle ∧
      (givenTags namesake.settle).Nodup ∧
      (Audit.check ⟨out.nodes, out.edges⟩).hasCode "S001" = true := by
  have hplain : namesake.Plain := Json.plain_naturals [1080] rfl (by decide)
  have hread : objectOf (namesake.toLines ++ "\n") = .ok namesake.settle :=
    objectOf_file hplain (by decide)
  exact ⟨_, config_eq hread rfl, hread, by decide +kernel, by decide +kernel⟩

end Import
end ProxyPlan
