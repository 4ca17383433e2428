/-
ProxyPlan.Proofs.Accounts — every entry of a document is taken over or skipped, and not both.

An entry can be lost in four ways: it cannot be read, its protocol is not known, it leads
nowhere, or it leads to what is not there. Each is said with a warning that begins with what the
entry is (`startsWith_message`). An entry that is taken over may be remarked on as well, as a
balancer whose strategy is not known or a rule that lists an inbound which is not there; but
then the warning begins otherwise.

`Handles` lists what can happen to one entry. From this the rest follows list by list, whatever
the entries are (`addAll_accounts`): the number of entries taken over or skipped grows by one
with every entry, the number of nodes of its kind grows with the number of entries taken over,
and the nodes stand in the order of the entries that they are made of. Only a rule may be taken
over and not become a node.
-/
import ProxyPlan.Proofs.Rules
import ProxyPlan.Proofs.Selectors

namespace ProxyPlan.Import

/-! ## Lists -/

namespace Listing

/-- What a document has under the name of a list. -/
def section? (doc : Json) : Listing → Option Json
  | .inbounds => doc.get? "inbounds"
  | .outbounds => doc.get? "outbounds"
  | .balancers => (doc.get? "routing").bind (Json.get? "balancers")
  | .rules => (doc.get? "routing").bind (Json.get? "rules")

/-- The entries of a list. What is missing or no list has none. -/
def entries (l : Listing) (doc : Json) : List Json :=
  match l.section? doc with
  | some (.list items) => items
  | _ => []

/-- The entries of the list become nodes of this kind. -/
def holds : Listing → Kind → Bool
  | .inbounds, k => k = .inbound
  | .outbounds, k => k.isOutbound
  | .balancers, k => k = .balancer
  | .rules, k => k = .routing

/-- The entries of the list become nodes, rules only if this is wanted. -/
def drawn (overNode : Bool) : Listing → Bool
  | .inbounds | .outbounds | .balancers => true
  | .rules => overNode

/-- A node tells by its kind from which list it comes. -/
theorem holds_iff {l m : Listing} {k : Kind} (h : l.holds k = true) :
    m.holds k = true ↔ m = l := by
  revert h
  cases l <;> cases m <;> cases k <;> decide

theorem itemsOf_eq (name : String) (v : Json) :
    itemsOf name v = match v.get? name with
      | some (.list items) => items
      | _ => [] := by
  rw [itemsOf]
  cases v.get? name with
  | none => rfl
  | some value => cases value <;> rfl

theorem entries_routing (name : String) (doc : Json) :
    itemsOf name ((doc.get? "routing").getD .null) =
      match (doc.get? "routing").bind (Json.get? name) with
      | some (.list items) => items
      | _ => [] := by
  rw [itemsOf_eq]
  cases doc.get? "routing" <;> rfl

end Listing

/-- How many entries of a list have been taken over. -/
def Summary.count (s : Summary) : Listing → Nat
  | .inbounds => s.inbounds
  | .outbounds => s.outbounds
  | .balancers => s.balancers
  | .rules => s.rules

/-- How many entries of a list have been taken over or skipped. -/
def Summary.accounted (s : Summary) (l : Listing) : Nat :=
  s.count l + s.warnings.countP fun w => w.skipped? = some l

/-! ## Wording -/

/-- A text that begins another one has its first letter. -/
theorem head?_of_prefix {start cs : List Char} (hne : start ≠ []) (h : start <+: cs) :
    cs.head? = start.head? := by
  obtain ⟨rest, rfl⟩ := h
  exact List.head?_append_of_ne_nil start hne

theorem Listing.entry_begins {l m : Listing} {rest : List Char} :
    l.entry.toList <+: m.entry.toList ++ rest ↔ l = m := by
  constructor
  · intro h
    -- what entries are called begins with four different letters
    have hne : ∀ k : Listing, k.entry.toList ≠ [] := by
      intro k
      cases k <;> decide
    have hfirst := head?_of_prefix (hne l) h
    rw [List.head?_append_of_ne_nil _ (hne m)] at hfirst
    revert hfirst
    cases l <;> cases m <;> decide
  · rintro rfl
    exact List.prefix_append _ _

/-- The wording of a warning tells whether an entry has been skipped, and of which list. -/
theorem startsWith_message (l : Listing) (w : Warning) :
    Text.startsWith ("Skipped " ++ l.entry) w.message = true ↔ w.skipped? = some l := by
  have hne : "Skipped ".toList ++ l.entry.toList ≠ [] := by simp
  rw [Text.startsWith_iff, String.toList_append]
  cases w with
  | unreadable _ _ _ | unsupported _ _ _ | noTarget _ | unknownTarget _ _ =>
    simp only [Warning.message, Warning.numbered, String.toList_append, List.append_assoc]
    rw [List.prefix_append_right_inj, Listing.entry_begins, Warning.skipped?, Option.some.injEq,
      eq_comm]
  | unknownStrategy _ _ | unknownInbound _ _ =>
    refine iff_of_false (fun h => ?_) (by simp [Warning.skipped?])
    have hfirst := head?_of_prefix hne h
    simp only [Warning.message, String.toList_append, List.append_assoc] at hfirst
    exact absurd (Option.some.inj hfirst) (by decide)

/-! ## Entries -/

/-- A node is made of an entry of a list, which is given with its place there. -/
inductive Becomes : Listing → Json × Nat → Node → Prop
  | inbound {entry : Json} {index : Nat} {n : Node} (i : Document.Inbound)
      (protocol : InboundProtocol) (read : Document.Inbound.codec.readValue entry = .ok i)
      (known : InboundProtocol.naming.find? i.protocol = some protocol)
      (role : n.role = .inbound (inboundOf protocol n.id i)) : Becomes .inbounds (entry, index) n
  | terminal {entry : Json} {index : Nat} {n : Node} (o : Document.Outbound)
      (protocol : TerminalProtocol) (read : Document.Outbound.codec.readValue entry = .ok o)
      (known : TerminalProtocol.naming.find? o.protocol = some protocol)
      (role : n.role = .terminal ⟨tagOr o.tag n.id, protocol⟩) :
      Becomes .outbounds (entry, index) n
  | proxy {entry : Json} {index : Nat} {n : Node} (o : Document.Outbound)
      (protocol : ProxyProtocol) (read : Document.Outbound.codec.readValue entry = .ok o)
      (known : ProxyProtocol.naming.find? o.protocol = some protocol)
      (role : n.role = .proxy (proxyOf protocol n.id o)) : Becomes .outbounds (entry, index) n
  | balancer {entry : Json} {index : Nat} {n : Node} (b : Document.Balancer)
      (read : Document.Balancer.codec.readValue entry = .ok b)
      (role : n.role = .balancer ⟨tagOr b.tag n.id, (Draft.strategyOf b).1, b.selector⟩) :
      Becomes .balancers (entry, index) n
  | rule {entry : Json} {index : Nat} {n : Node} (r : Document.Rule)
      (read : Document.Rule.codec.readValue entry = .ok r)
      (role : n.role = .routing ⟨Draft.ruleTag (index + 1) r, predicatesOf r⟩) :
      Becomes .rules (entry, index) n

theorem Becomes.holds {l : Listing} {x : Json × Nat} {n : Node} (h : Becomes l x n) :
    l.holds n.kind = true := by
  cases h with
  | inbound _ _ _ _ role | terminal _ _ _ _ role | proxy _ _ _ _ role | balancer _ _ role
  | rule _ _ role =>
    rw [Node.kind, role]
    rfl

/-- Where a node is put does not matter. -/
theorem Becomes.of_unplaced {l : Listing} {x : Json × Nat} {n : Node} (h : Becomes l x n.unplaced) :
    Becomes l x n := by
  cases h with
  | inbound i protocol read known role => exact .inbound i protocol read known role
  | terminal o protocol read known role => exact .terminal o protocol read known role
  | proxy o protocol read known role => exact .proxy o protocol read known role
  | balancer b read role => exact .balancer b read role
  | rule r read role => exact .rule r read role

namespace Draft

variable {d d' d'' : Draft} {overNode : Bool} {l : Listing} {x : Json × Nat}

/-- One entry of a list has been taken over, and what is said of it is not that one has been
skipped. -/
structure Counts (l : Listing) (d d' : Draft) : Prop where
  count : ∀ m, d'.summary.count m = d.summary.count m + if m = l then 1 else 0
  warnings : ∃ said, d'.warnings = d.warnings ++ said ∧ ∀ w ∈ said, w.skipped? = none

theorem counts_silently
    (hcount : ∀ m, d'.summary.count m = d.summary.count m + if m = l then 1 else 0)
    (hwarnings : d'.warnings = d.warnings) : Counts l d d' :=
  ⟨hcount, [], by rw [hwarnings, List.append_nil], by simp⟩

/-- What happens to an entry: it is skipped, or it becomes a node, or, if it is a rule that
does not become a node, it only leaves links. -/
inductive Handles (overNode : Bool) (l : Listing) (x : Json × Nat) (d : Draft) : Draft → Prop
  | skipped (w : Warning) (skips : w.skipped? = some l) : Handles overNode l x d (d.warn w)
  | node {d' : Draft} (n : Node) (drawn : l.drawn overNode = true) (becomes : Becomes l x n)
      (nodes : d'.nodes = d.nodes ++ [n]) (counts : Counts l d d') : Handles overNode l x d d'
  | links {d' : Draft} (undrawn : l.drawn overNode = false) (nodes : d'.nodes = d.nodes)
      (counts : Counts l d d') : Handles overNode l x d d'

theorem handles_addInbound {i : Document.Inbound}
    (hread : Document.Inbound.codec.readValue x.1 = .ok i) (d : Draft) :
    Handles overNode .inbounds x d (d.addInbound i) := by
  rw [addInbound]
  split
  case h_1 protocol hprotocol =>
    refine .node _ rfl (.inbound i protocol hread hprotocol rfl) rfl (counts_silently ?_ rfl)
    intro m
    cases m <;> rfl
  case h_2 => exact .skipped _ rfl

theorem handles_addOutbound {o : Document.Outbound}
    (hread : Document.Outbound.codec.readValue x.1 = .ok o) (d : Draft) :
    Handles overNode .outbounds x d (d.addOutbound o) := by
  rw [addOutbound]
  split
  case h_1 protocol hprotocol =>
    refine .node _ rfl (.terminal o protocol hread hprotocol rfl) rfl (counts_silently ?_ rfl)
    intro m
    cases m <;> rfl
  case h_2 protocol _ hprotocol =>
    refine .node _ rfl (.proxy o protocol hread hprotocol rfl) rfl (counts_silently ?_ rfl)
    intro m
    cases m <;> rfl
  case h_3 => exact .skipped _ rfl

theorem skipped?_strategyOf (b : Document.Balancer) :
    ∀ w ∈ (strategyOf b).2, w.skipped? = none := by
  unfold strategyOf
  split
  · simp
  · split <;> simp [Warning.skipped?]

theorem handles_addBalancer {b : Document.Balancer}
    (hread : Document.Balancer.codec.readValue x.1 = .ok b) (d : Draft) :
    Handles overNode .balancers x d (d.addBalancer b) := by
  obtain ⟨es, hadded, -⟩ := addBalancer_eq b d
  rw [hadded]
  refine .node _ rfl (.balancer b hread rfl) rfl ⟨fun m => ?_, _, rfl, skipped?_strategyOf b⟩
  cases m <;> rfl

theorem skipped?_of_target {number : Nat} {r : Document.Rule} {w : Warning}
    (h : d.target number r = .error w) : w.skipped? = some .rules := by
  unfold target at h
  split at h
  case h_1 | h_2 =>
    split at h
    · cases h
    · obtain rfl := Except.error.inj h
      rfl
  case h_3 =>
    obtain rfl := Except.error.inj h
    rfl

theorem skipped?_unknownInbounds (d : Draft) (number : Nat) (listed : List String) :
    ∀ w ∈ d.unknownInbounds number listed, w.skipped? = none := by
  intro w hw
  obtain ⟨tag, -, rfl⟩ := List.mem_map.mp hw
  rfl

theorem handles_addRule {r : Document.Rule} (hread : Document.Rule.codec.readValue x.1 = .ok r)
    (d : Draft) : Handles overNode .rules x d (d.addRule overNode x.2 r) := by
  rw [addRule]
  split
  case h_1 w hw => exact .skipped w (skipped?_of_target hw)
  case h_2 target _ =>
    have hsaid := skipped?_unknownInbounds d (x.2 + 1) (r.inboundTag.getD [])
    let counted : Draft :=
      { d with
        rules := d.rules + 1
        warnings := d.warnings ++ d.unknownInbounds (x.2 + 1) (r.inboundTag.getD []) }
    have hcount : ∀ m,
        counted.summary.count m = d.summary.count m + if m = .rules then 1 else 0 := by
      intro m
      cases m <;> rfl
    show Handles overNode .rules x d
      (counted.lead overNode x.2 r (d.sources (r.inboundTag.getD [])) target)
    cases overNode with
    | true =>
      obtain ⟨into, out, hled, -⟩ :=
        lead_spec counted x.2 r (d.sources (r.inboundTag.getD [])) target
      rw [hled]
      exact .node _ rfl (.rule r hread rfl) rfl ⟨hcount, _, rfl, hsaid⟩
    | false =>
      obtain ⟨es, hled⟩ := lead_links counted x.2 r (d.sources (r.inboundTag.getD [])) target
      rw [hled]
      exact .links rfl rfl ⟨hcount, _, rfl, hsaid⟩

/-! ## What follows for one entry -/

/-- Nodes are counted: there are as many as entries have been taken over as nodes. -/
def Tallied (overNode : Bool) (d : Draft) : Prop :=
  ∀ m : Listing, (d.nodes.countP fun n => m.holds n.kind) =
    if m.drawn overNode then d.summary.count m else 0

theorem Counts.accounted (h : Counts l d d') (m : Listing) :
    d'.summary.accounted m = d.summary.accounted m + if m = l then 1 else 0 := by
  obtain ⟨hcount, said, hwarnings, hsaid⟩ := h
  have hnone : (said.countP fun w => w.skipped? = some m) = 0 := by
    rw [List.countP_eq_zero]
    intro w hw
    simp [hsaid w hw]
  have hskipped : (d'.summary.warnings.countP fun w => w.skipped? = some m) =
      d.summary.warnings.countP fun w => w.skipped? = some m := by
    show (d'.warnings.countP fun w => w.skipped? = some m) = _
    rw [hwarnings, List.countP_append, hnone]
    rfl
  rw [Summary.accounted, Summary.accounted, hcount, hskipped]
  omega

/-- An entry is taken over or skipped, and this is counted once. -/
theorem Handles.accounted (h : Handles overNode l x d d') (m : Listing) :
    d'.summary.accounted m = d.summary.accounted m + if m = l then 1 else 0 := by
  cases h with
  | skipped w skips =>
    have hcount : (d.warn w).summary.count m = d.summary.count m := by cases m <;> rfl
    have hsaid : ([w].countP fun w => w.skipped? = some m) = if m = l then 1 else 0 := by
      by_cases hm : m = l
      · simp [skips, hm]
      · simp [skips, hm, Ne.symm hm]
    rw [Summary.accounted, Summary.accounted, hcount, ← hsaid]
    show _ + (d.warnings ++ [w]).countP _ = _
    rw [List.countP_append, Nat.add_assoc]
    rfl
  | node n drawn becomes nodes counts => exact counts.accounted m
  | links undrawn nodes counts => exact counts.accounted m

theorem Handles.tallied (h : Handles overNode l x d d') (ht : d.Tallied overNode) :
    d'.Tallied overNode := by
  intro m
  cases h with
  | skipped w skips =>
    have hcount : (d.warn w).summary.count m = d.summary.count m := by cases m <;> rfl
    rw [hcount]
    exact ht m
  | node n drawn becomes nodes counts =>
    rw [nodes, List.countP_append, ht m, counts.count]
    by_cases hm : m = l
    · subst hm
      have hone : ([n].countP fun n => m.holds n.kind) = 1 := by
        simp [becomes.holds]
      rw [hone, if_pos drawn, if_pos drawn, if_pos rfl]
    · have hzero : ([n].countP fun n => m.holds n.kind) = 0 := by
        simp [Listing.holds_iff becomes.holds, hm]
      rw [hzero, if_neg hm, Nat.add_zero, Nat.add_zero]
  | links undrawn nodes counts =>
    rw [nodes, ht m, counts.count]
    by_cases hm : m = l
    · subst hm
      simp [undrawn]
    · simp [hm]

/-- An entry becomes one node at most. -/
theorem Handles.nodes (h : Handles overNode l x d d') :
    ∃ taken made, List.Sublist taken [x] ∧ List.Forall₂ (Becomes l) taken made ∧
      d'.nodes = d.nodes ++ made := by
  cases h with
  | skipped w skips => exact ⟨[], [], by simp, .nil, (List.append_nil _).symm⟩
  | node n drawn becomes nodes counts =>
    exact ⟨[x], [n], .refl _, .cons becomes .nil, nodes⟩
  | links undrawn nodes counts => exact ⟨[], [], by simp, .nil, by rw [nodes, List.append_nil]⟩

/-! ## What follows for a list -/

/-- The entries of a list are accounted for between two drafts. -/
structure Accounts (overNode : Bool) (l : Listing) (xs : List (Json × Nat)) (d d' : Draft) :
    Prop where
  accounted : ∀ m, d'.summary.accounted m = d.summary.accounted m + if m = l then xs.length else 0
  tallied : d.Tallied overNode → d'.Tallied overNode
  nodes : ∃ taken made, List.Sublist taken xs ∧ List.Forall₂ (Becomes l) taken made ∧
    d'.nodes = d.nodes ++ made

theorem accounts_nil (d : Draft) : Accounts overNode l [] d d where
  accounted m := by simp
  tallied h := h
  nodes := ⟨[], [], by simp, .nil, (List.append_nil _).symm⟩

theorem Handles.accounts {xs : List (Json × Nat)} (h : Handles overNode l x d d')
    (hrest : Accounts overNode l xs d' d'') : Accounts overNode l (x :: xs) d d'' where
  accounted m := by
    rw [hrest.accounted, h.accounted, List.length_cons]
    split <;> omega
  tallied ht := hrest.tallied (h.tallied ht)
  nodes := by
    obtain ⟨first, made, hfirst, hmade, hnodes⟩ := h.nodes
    obtain ⟨taken, others, htaken, hothers, hmore⟩ := hrest.nodes
    refine ⟨first ++ taken, made ++ others, hfirst.append htaken,
      List.rel_append hmade hothers, ?_⟩
    rw [hmore, hnodes, List.append_assoc]

/-- If each entry that can be read is handled, a list of entries is accounted for. -/
theorem addAll_accounts {α : Type} {c : Json.Codec α} {add : Nat → α → Draft → Draft}
    (hadd : ∀ x : Json × Nat, ∀ a, c.readValue x.1 = .ok a → ∀ d,
      Handles overNode l x d (add x.2 a d)) (index : Nat) (entries : List Json) (d : Draft) :
    Accounts overNode l (entries.zipIdx index) d (addAll c l add index entries d) := by
  induction entries generalizing index d with
  | nil => exact accounts_nil d
  | cons entry rest ih =>
    rw [addAll, List.zipIdx_cons]
    refine Handles.accounts ?_ (ih (index + 1) _)
    cases hread : c.readValue entry with
    | ok a => exact hadd (entry, index) a hread d
    | error fault => exact .skipped _ rfl

end Draft

/-! ## The whole document -/

/-- The four lists are accounted for one after the other. -/
theorem exists_accounts (o : Options) (doc : Json) : ∃ is os bs,
    Draft.Accounts o.ruleNodes .inbounds (Listing.inbounds.entries doc).zipIdx .empty is ∧
    Draft.Accounts o.ruleNodes .outbounds (Listing.outbounds.entries doc).zipIdx is os ∧
    Draft.Accounts o.ruleNodes .balancers (Listing.balancers.entries doc).zipIdx os bs ∧
    Draft.Accounts o.ruleNodes .rules (Listing.rules.entries doc).zipIdx bs (draft o doc) := by
  rw [draft]
  simp only [Listing.itemsOf_eq "inbounds", Listing.itemsOf_eq "outbounds",
    Listing.entries_routing]
  exact ⟨_, _, _, Draft.addAll_accounts (fun x i => Draft.handles_addInbound) 0 _ _,
    Draft.addAll_accounts (fun x o => Draft.handles_addOutbound) 0 _ _,
    Draft.addAll_accounts (fun x b => Draft.handles_addBalancer) 0 _ _,
    Draft.addAll_accounts (fun x r => Draft.handles_addRule) 0 _ _⟩

theorem accounted_draft (o : Options) (doc : Json) (l : Listing) :
    (draft o doc).summary.accounted l = (l.entries doc).length := by
  obtain ⟨is, os, bs, hinbounds, houtbounds, hbalancers, hrules⟩ := exists_accounts o doc
  rw [hrules.accounted, hbalancers.accounted, houtbounds.accounted, hinbounds.accounted]
  cases l <;> simp [Summary.accounted, Summary.count, Draft.summary, Draft.empty]

theorem tallied_draft (o : Options) (doc : Json) : (draft o doc).Tallied o.ruleNodes := by
  obtain ⟨is, os, bs, hinbounds, houtbounds, hbalancers, hrules⟩ := exists_accounts o doc
  refine hrules.tallied (hbalancers.tallied (houtbounds.tallied (hinbounds.tallied ?_)))
  intro m
  cases m <;> simp [Draft.empty, Draft.summary, Summary.count]

/-- The nodes are made of entries of a list and stand in their order. -/
def InOrder (doc : Json) (l : Listing) (nodes : List Node) : Prop :=
  ∃ taken, List.Sublist taken (l.entries doc).zipIdx ∧ List.Forall₂ (Becomes l) taken nodes

/-- The nodes stand list by list, and those of one list in the order of its entries. -/
def Arranged (doc : Json) (nodes : List Node) : Prop :=
  ∃ inbounds outbounds balancers rules, nodes = inbounds ++ outbounds ++ balancers ++ rules ∧
    InOrder doc .inbounds inbounds ∧ InOrder doc .outbounds outbounds ∧
    InOrder doc .balancers balancers ∧ InOrder doc .rules rules

theorem arranged_draft (o : Options) (doc : Json) : Arranged doc (draft o doc).nodes := by
  obtain ⟨is, os, bs, hinbounds, houtbounds, hbalancers, hrules⟩ := exists_accounts o doc
  obtain ⟨takenInbounds, inbounds, hi, hmadeInbounds, hfirst⟩ := hinbounds.nodes
  obtain ⟨takenOutbounds, outbounds, ho, hmadeOutbounds, hsecond⟩ := houtbounds.nodes
  obtain ⟨takenBalancers, balancers, hb, hmadeBalancers, hthird⟩ := hbalancers.nodes
  obtain ⟨takenRules, rules, hr, hmadeRules, hlast⟩ := hrules.nodes
  refine ⟨inbounds, outbounds, balancers, rules, ?_, ⟨_, hi, hmadeInbounds⟩,
    ⟨_, ho, hmadeOutbounds⟩, ⟨_, hb, hmadeBalancers⟩, ⟨_, hr, hmadeRules⟩⟩
  rw [hlast, hthird, hsecond, hfirst]
  rfl

theorem InOrder.of_unplaced {doc : Json} {l : Listing} {nodes : List Node}
    (h : InOrder doc l (nodes.map Node.unplaced)) : InOrder doc l nodes := by
  obtain ⟨taken, hsub, hmade⟩ := h
  rw [List.forall₂_map_right_iff] at hmade
  exact ⟨taken, hsub, hmade.imp fun _ _ hn => hn.of_unplaced⟩

/-- Placing the nodes changes neither what they are made of nor their order. -/
theorem Arranged.of_unplaced {doc : Json} {nodes : List Node}
    (h : Arranged doc (nodes.map Node.unplaced)) : Arranged doc nodes := by
  obtain ⟨_, _, _, _, hnodes, hi, ho, hb, hr⟩ := h
  obtain ⟨front, rules, rfl, hfront, rfl⟩ := List.map_eq_append_iff.mp hnodes
  obtain ⟨ends, balancers, rfl, hends, rfl⟩ := List.map_eq_append_iff.mp hfront
  obtain ⟨inbounds, outbounds, rfl, rfl, rfl⟩ := List.map_eq_append_iff.mp hends
  exact ⟨inbounds, outbounds, balancers, rules, rfl, hi.of_unplaced, ho.of_unplaced,
    hb.of_unplaced, hr.of_unplaced⟩

/-- The summary of a document that is taken over accounts for every entry: there are as many
entries in a list as have been taken over, by the summary, and warnings that begin by saying that
one has been skipped. There are as many nodes for a list as entries have been taken over, rules
apart, which become nodes all or not at all. The nodes stand list by list, and there in the order
of the entries that they are made of. -/
theorem config_accounts {text : String} {o : Options} {out : Outcome}
    (h : config text o = .ok out) :
    ∃ doc, objectOf text = .ok doc ∧
      (∀ l : Listing, (l.entries doc).length = out.summary.count l +
        out.summary.warnings.countP fun w => Text.startsWith ("Skipped " ++ l.entry) w.message) ∧
      (∀ l : Listing, (out.nodes.countP fun n => l.holds n.kind) =
        if l.drawn o.ruleNodes then out.summary.count l else 0) ∧
      Arranged doc out.nodes := by
  cases hdoc : objectOf text with
  | error e =>
    rw [config, hdoc] at h
    cases h
  | ok doc =>
    obtain rfl := outcome_eq h hdoc
    have hplaced : ((draft o doc).outcome o).nodes.map Node.unplaced = (draft o doc).nodes :=
      congrArg Graph.nodes (unplaced_outcome (sound_draft o doc).made o)
    refine ⟨doc, rfl, fun l => ?counted, fun l => ?tallied, Arranged.of_unplaced ?arranged⟩
    case counted =>
      rw [← accounted_draft o doc l, Summary.accounted]
      congr 1
      refine List.countP_congr fun w _ => ?_
      rw [startsWith_message, decide_eq_true_eq]
    case tallied =>
      have htallied := tallied_draft o doc l
      rw [← hplaced, List.countP_map] at htallied
      exact htallied
    case arranged =>
      rw [hplaced]
      exact arranged_draft o doc

/-- Some entries are lost: one cannot be read, one has an unknown protocol, one rule leads
nowhere and one to an outbound that is not there. The balancer has an unknown strategy and the
first rule lists an unknown inbound, but both are taken over. -/
def patchy : Json :=
  .object [
    ("inbounds", .list [inboundEntry "in" 1080, .text "none"]),
    ("outbounds", .list [outboundEntry "odd" "hysteria", outboundEntry "out" "freedom"]),
    ("routing", .object [
      ("balancers", .list [.object [("tag", .text "any"), ("selector", .list [.text "out"]),
        ("strategy", .object [("type", .text "best")])]]),
      ("rules", .list [linkEntry ["away"] "out", .object [], linkEntry [] "gone",
        .object [("balancerTag", .text "any")]])])]

theorem config_accounts_patchy :
    ∃ out, config (patchy.toLines ++ "\n") .usual = .ok out ∧
      objectOf (patchy.toLines ++ "\n") = .ok patchy.settle ∧
      (Listing.rules.entries patchy.settle).length = 4 ∧ out.summary.warnings.length = 6 ∧
      (out.summary.warnings.countP fun w => Text.startsWith "Skipped rule" w.message) = 2 ∧
      (out.nodes.countP fun n => Listing.rules.holds n.kind) = 2 ∧
      Arranged patchy.settle out.nodes := by
  have hplain : patchy.Plain := Json.plain_naturals [1080] rfl (by decide)
  have hread : objectOf (patchy.toLines ++ "\n") = .ok patchy.settle :=
    objectOf_file hplain (by decide)
  have hout := config_eq (o := .usual) hread rfl
  obtain ⟨doc, hdoc, hcounted, htallied, harranged⟩ := config_accounts hout
  obtain rfl : doc = patchy.settle := Except.ok.inj (hdoc.symm.trans hread)
  have hentries : (Listing.rules.entries patchy.settle).length = 4 := by decide +kernel
  have hwarnings : (draft .usual patchy.settle).warnings.length = 6 := by decide +kernel
  have hrules : ((draft .usual patchy.settle).outcome .usual).summary.count .rules = 2 := by
    decide +kernel
  refine ⟨_, hout, hread, hentries, hwarnings, ?_, (htallied .rules).trans hrules, harranged⟩
  have hbegin : "Skipped " ++ Listing.rules.entry = "Skipped rule" := by decide
  have hskipped := hcounted .rules
  rw [hentries, hrules, hbegin] at hskipped
  omega

end ProxyPlan.Import
