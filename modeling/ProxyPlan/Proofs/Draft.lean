/-
ProxyPlan.Proofs.Draft — what the steps of a draft do to its graph.

A draft only grows at the end: every step adds one node at most, and edges.
The node gets a number that no other node has, since it is one more than the
number of nodes (`nextId_fresh`), and edges are never drawn twice
(`foldl_link`).
-/
import ProxyPlan.Import.Draft
import ProxyPlan.Proofs.Growth
import ProxyPlan.Proofs.Text

namespace ProxyPlan.Import

/-! ## Numbered names -/

theorem toList_numbered (word : String) (number : Nat) :
    (word ++ "-" ++ toString number).toList = word.toList ++ '-' :: Nat.toDigits 10 number := by
  simp

theorem hyphen_not_mem_toDigits (number : Nat) : '-' ∉ Nat.toDigits 10 number := fun h =>
  absurd (Nat.isDigit_of_mem_toDigits (by decide) (by decide) h) (by decide)

/-- The number is what follows the last hyphen. -/
theorem takeWhile_numbered (word : String) (number : Nat) :
    (word ++ "-" ++ toString number).toList.reverse.takeWhile (· ≠ '-') =
      (Nat.toDigits 10 number).reverse := by
  have hdigits : ∀ c ∈ (Nat.toDigits 10 number).reverse, decide (c ≠ '-') = true := by
    intro c hc
    refine decide_eq_true fun heq => hyphen_not_mem_toDigits number ?_
    rw [← heq]
    exact List.mem_reverse.mp hc
  rw [toList_numbered, List.reverse_append, List.reverse_cons, List.append_assoc,
    List.takeWhile_append_of_pos hdigits]
  simp

/-- A numbered name tells its word and its number. -/
theorem numbered_inj {v w : String} {m n : Nat}
    (h : v ++ "-" ++ toString m = w ++ "-" ++ toString n) : v = w ∧ m = n := by
  have hdigits : Nat.toDigits 10 m = Nat.toDigits 10 n := by
    rw [← List.reverse_inj, ← takeWhile_numbered v, h, takeWhile_numbered]
  have hword : v.toList ++ '-' :: Nat.toDigits 10 m = w.toList ++ '-' :: Nat.toDigits 10 n := by
    rw [← toList_numbered, h, toList_numbered]
  refine ⟨?_, ?_⟩
  · rw [hdigits] at hword
    exact String.toList_inj.mp (List.append_cancel_right hword)
  · rw [← Nat.ofDigitChars_toDigits (b := 10) (n := m) (by decide) (by decide), hdigits,
      Nat.ofDigitChars_toDigits (by decide) (by decide)]

/-- A numbered name has no white space at its end. -/
theorem tight_numbered {word : String} {c : Char} {cs : List Char} (hword : word.toList = c :: cs)
    (hc : Text.isBlank c = false) (number : Nat) :
    Text.Tight (word ++ "-" ++ toString number) := by
  have hne : Nat.toDigits 10 number ≠ [] := Nat.toDigits_ne_nil
  have hdigit := Nat.isDigit_of_mem_toDigits (by decide) (by decide) (List.getLast_mem hne)
  have hlast : (word ++ "-" ++ toString number).toList =
      (word.toList ++ '-' :: (Nat.toDigits 10 number).dropLast) ++
        [(Nat.toDigits 10 number).getLast hne] := by
    rw [toList_numbered, List.append_assoc, List.cons_append, List.dropLast_append_getLast]
  have hfirst : (word ++ "-" ++ toString number).toList =
      c :: (cs ++ '-' :: Nat.toDigits 10 number) := by
    rw [toList_numbered, hword, List.cons_append]
  exact Text.tight_of_ends hfirst hlast hc (Text.isBlank_digit hdigit)

/-! ## Numbered identities -/

/-- The identity of the node of a number. -/
def numberedId (k : Kind) (number : Nat) : String := k.name ++ "-" ++ toString number

theorem numberedId_inj {j k : Kind} {m n : Nat} (h : numberedId j m = numberedId k n) : m = n :=
  (numbered_inj h).2

/-- A numbered identity can stand in for a tag. -/
theorem tight_numberedId (k : Kind) (number : Nat) : Text.Tight (numberedId k number) := by
  obtain ⟨c, cs, hname, hc⟩ : ∃ c cs, k.name.toList = c :: cs ∧ Text.isBlank c = false := by
    cases k <;> exact ⟨_, _, rfl, by decide⟩
  exact tight_numbered hname hc number

namespace Draft

variable {d : Draft}

/-! ## Nodes -/

/-- The graph of a draft. -/
def graph (d : Draft) : Graph := ⟨d.nodes, d.edges⟩

/-- The node that is added next. -/
def next (d : Draft) (role : Role) : Node := ⟨d.nextId role.kind, .origin, role, none⟩

theorem graph_add (d : Draft) (role : Role) :
    (d.add role).graph = d.graph.grow [d.next role] [] := by
  rw [Graph.grow, List.append_nil]
  rfl

/-- Every node is as it has been added: numbered, unplaced and without a server. -/
def Made (d : Draft) : Prop :=
  ∀ n ∈ d.nodes, ∃ number, number ≤ d.nodes.length ∧
    n = ⟨numberedId n.kind number, .origin, n.role, none⟩

theorem made_empty : empty.Made := by
  simp [Made, empty]

theorem Made.grow {d' : Draft} (h : d.Made) (role : Role)
    (hnodes : d'.nodes = d.nodes ++ [d.next role]) : d'.Made := by
  have hlength : d'.nodes.length = d.nodes.length + 1 := by
    rw [hnodes, List.length_append, List.length_singleton]
  intro n hn
  rw [hnodes] at hn
  rcases List.mem_append.mp hn with hn | hn
  · obtain ⟨number, hle, hnode⟩ := h n hn
    exact ⟨number, by omega, hnode⟩
  · obtain rfl := List.mem_singleton.mp hn
    exact ⟨d.nodes.length + 1, Nat.le_of_eq hlength.symm, rfl⟩

/-- No node has the number of the next one. -/
theorem Made.nextId_fresh (h : d.Made) (k : Kind) : d.nextId k ∉ d.graph.ids := by
  intro hmem
  obtain ⟨n, hn, hid⟩ := Graph.mem_ids.mp hmem
  obtain ⟨number, hle, hnode⟩ := h n hn
  have hnumbered : numberedId n.kind number = numberedId k (d.nodes.length + 1) := by
    have hself := congrArg Placed.id hnode
    exact hself.symm.trans hid
  have := numberedId_inj hnumbered
  omega

/-! ## Edges -/

/-- Linking draws edges of the given priority where there are none, and leaves
the rest of the draft alone. -/
theorem link_spec (d : Draft) (source target : String) (priority : Option UInt32) :
    ∃ es, d.link source target priority = { d with edges := d.edges ++ es } ∧
      (∀ e ∈ es, e.source = source ∧ e.target = target ∧
        e.priority = priority.getD defaultPriority) ∧
      ∃ e ∈ d.edges ++ es, e.source = source ∧ e.target = target := by
  rw [link]
  split
  case isTrue hlinked =>
    obtain ⟨e, he, hends⟩ := List.any_eq_true.mp hlinked
    refine ⟨[], by rw [List.append_nil], by simp, e, by simpa using he, by simpa using hends⟩
  case isFalse =>
    refine ⟨_, rfl, ?_, _, List.mem_append_right _ (List.mem_singleton.mpr rfl), rfl, rfl⟩
    intro e he
    obtain rfl := List.mem_singleton.mp he
    refine ⟨rfl, rfl, ?_⟩
    cases priority <;> rfl

/-- Two nodes that are not linked get one edge. -/
theorem link_new (source target : String) (priority : Option UInt32)
    (h : ∀ e ∈ d.edges, ¬(e.source = source ∧ e.target = target)) :
    ∃ e : Edge, d.link source target priority = { d with edges := d.edges ++ [e] } ∧
      e.source = source ∧ e.target = target := by
  have hnot : d.isLinked source target = false := by
    rw [isLinked, List.any_eq_false]
    intro e he
    simpa using h e he
  rw [link, hnot]
  exact ⟨_, rfl, rfl, rfl⟩

/-- Linking pair after pair draws edges between these pairs only, and leaves every
pair linked. -/
theorem foldl_link {α : Type} (source target : α → String) (priority : Option UInt32)
    (xs : List α) (d : Draft) :
    ∃ es, xs.foldl (fun d x => d.link (source x) (target x) priority) d =
        { d with edges := d.edges ++ es } ∧
      (∀ e ∈ es, (∃ x ∈ xs, e.source = source x ∧ e.target = target x) ∧
        e.priority = priority.getD defaultPriority) ∧
      ∀ x ∈ xs, ∃ e ∈ d.edges ++ es, e.source = source x ∧ e.target = target x := by
  induction xs generalizing d with
  | nil => exact ⟨[], by rw [List.foldl_nil, List.append_nil], by simp, by simp⟩
  | cons x rest ih =>
    obtain ⟨first, hfirst, hends, e, he, hlinked⟩ := link_spec d (source x) (target x) priority
    obtain ⟨others, hothers, hdrawn, hall⟩ := ih (d.link (source x) (target x) priority)
    rw [hfirst] at hothers hall
    refine ⟨first ++ others, ?_, ?_, ?_⟩
    · rw [List.foldl_cons, hfirst, hothers, List.append_assoc]
    · intro e he
      rcases List.mem_append.mp he with he | he
      · obtain ⟨hsource, htarget, hpriority⟩ := hends e he
        exact ⟨⟨x, by simp, hsource, htarget⟩, hpriority⟩
      · obtain ⟨⟨y, hy, hends⟩, hpriority⟩ := hdrawn e he
        exact ⟨⟨y, by simp [hy], hends⟩, hpriority⟩
    · rw [← List.append_assoc]
      intro y hy
      rcases List.mem_cons.mp hy with rfl | hy
      · exact ⟨e, List.mem_append_left _ he, hlinked⟩
      · exact hall y hy

/-! ## Tags -/

/-- If some node has a tag, one is found. -/
theorem exists_latest? {kinds : Kind → Bool} {tag : String} {n : Node} (hn : n ∈ d.nodes)
    (hkind : kinds n.kind = true) (htag : n.tag? = some tag) :
    ∃ id, d.latest? kinds tag = some id := by
  have hfound : (d.nodes.reverse.find? fun n =>
      kinds (Node.kind n) && decide (Node.tag? n = some tag)).isSome = true := by
    rw [List.find?_isSome]
    exact ⟨n, List.mem_reverse.mpr hn, by simp [hkind, htag]⟩
  obtain ⟨m, hm⟩ := Option.isSome_iff_exists.mp hfound
  exact ⟨m.id, by rw [latest?, hm]; rfl⟩

/-- What is found under a tag is the last node with this tag. -/
theorem last_of_latest? {kinds : Kind → Bool} {tag id : String}
    (h : d.latest? kinds tag = some id) :
    ∃ before n after, d.nodes = before ++ n :: after ∧ n.id = id ∧
      (kinds n.kind = true ∧ n.tag? = some tag) ∧
      ∀ m ∈ after, ¬(kinds m.kind = true ∧ m.tag? = some tag) := by
  obtain ⟨n, hn, hid⟩ := Option.map_eq_some_iff.mp h
  obtain ⟨htest, later, earlier, hsplit, hlast⟩ := List.find?_eq_some_iff_append.mp hn
  simp only [Bool.and_eq_true, decide_eq_true_eq] at htest
  refine ⟨earlier.reverse, n, later.reverse, ?_, hid, htest, fun m hm hmtest => ?_⟩
  · rw [← List.reverse_reverse d.nodes, hsplit]
    simp
  · have hnot := hlast m (List.mem_reverse.mp hm)
    simp [hmtest] at hnot

/-- What is found under a tag is a node with this tag. -/
theorem of_latest? {kinds : Kind → Bool} {tag id : String} (h : d.latest? kinds tag = some id) :
    ∃ n ∈ d.nodes, n.id = id ∧ kinds n.kind = true ∧ n.tag? = some tag := by
  obtain ⟨before, n, after, hnodes, hid, hn, -⟩ := last_of_latest? h
  exact ⟨n, by simp [hnodes], hid, hn⟩

theorem latest?_eq_none {kinds : Kind → Bool} {tag : String} :
    d.latest? kinds tag = none ↔ ∀ n ∈ d.nodes, ¬(kinds n.kind = true ∧ n.tag? = some tag) := by
  constructor
  · rintro hnone n hn ⟨hkind, htag⟩
    obtain ⟨id, hid⟩ := exists_latest? hn hkind htag
    rw [hnone] at hid
    cases hid
  · intro h
    cases hlatest : d.latest? kinds tag with
    | none => rfl
    | some id =>
      obtain ⟨n, hn, -, hself⟩ := of_latest? hlatest
      exact absurd hself (h n hn)

/-! ## Balancers and rules -/

/-- A balancer is a node, which is counted, with edges to the outbounds that it picks, and to
all of them. -/
theorem addBalancer_eq (b : Document.Balancer) (d : Draft) :
    ∃ es, d.addBalancer b =
        { Draft.add
            { d with edges := d.edges ++ es, warnings := d.warnings ++ (strategyOf b).2 }
            (.balancer ⟨tagOr b.tag (d.nextId .balancer), (strategyOf b).1, b.selector⟩) with
          balancers := d.balancers + 1 } ∧
      (∀ e ∈ es, e.source = d.nextId .balancer ∧
        ∃ n ∈ d.nodes, isPicked b.selector n = true ∧ e.target = n.id) ∧
      ∀ n ∈ d.nodes, isPicked b.selector n = true →
        ∃ e ∈ d.edges ++ es, e.source = d.nextId .balancer ∧ e.target = n.id := by
  obtain ⟨es, hes, hdrawn, hall⟩ := foldl_link (fun _ => d.nextId .balancer) id none
    (d.idsOf (isPicked b.selector)) { d with warnings := d.warnings ++ (strategyOf b).2 }
  refine ⟨es, ?_, fun e he => ?_, fun n hn hpicked => ?_⟩
  · have hlinked := congrArg (fun linked : Draft =>
      let grown := linked.add
        (.balancer ⟨tagOr b.tag (d.nextId .balancer), (strategyOf b).1, b.selector⟩)
      { grown with balancers := grown.balancers + 1 }) hes
    exact hlinked
  · obtain ⟨⟨target, htarget, hsource, hends⟩, -⟩ := hdrawn e he
    obtain ⟨n, hn, rfl⟩ := List.mem_map.mp htarget
    obtain ⟨hn, hpicked⟩ := List.mem_filter.mp hn
    exact ⟨hsource, n, hn, hpicked, hends⟩
  · exact hall n.id (List.mem_map.mpr ⟨n, List.mem_filter.mpr ⟨hn, hpicked⟩, rfl⟩)

/-- What a balancer adds to the graph and to what is said. -/
theorem addBalancer_spec (b : Document.Balancer) (d : Draft) :
    ∃ es, (d.addBalancer b).graph = d.graph.grow
        [d.next (.balancer ⟨tagOr b.tag (d.nextId .balancer), (strategyOf b).1, b.selector⟩)] es ∧
      (d.addBalancer b).warnings = d.warnings ++ (strategyOf b).2 ∧
      (∀ e ∈ es, e.source = d.nextId .balancer ∧
        ∃ n ∈ d.nodes, isPicked b.selector n = true ∧ e.target = n.id) ∧
      ∀ n ∈ d.nodes, isPicked b.selector n = true →
        ∃ e ∈ d.edges ++ es, e.source = d.nextId .balancer ∧ e.target = n.id := by
  obtain ⟨es, hadded, hdrawn, hall⟩ := addBalancer_eq b d
  exact ⟨es, by rw [hadded]; rfl, by rw [hadded]; rfl, hdrawn, hall⟩

/-- A rule that does not become a node only adds edges. -/
theorem lead_links (d : Draft) (index : Nat) (r : Document.Rule) (sources : List String)
    (target : String) :
    ∃ es, d.lead false index r sources target = { d with edges := d.edges ++ es } := by
  obtain ⟨es, hes, -⟩ := foldl_link id (fun _ => target) (Text.word? index) sources d
  exact ⟨es, hes⟩

/-- A rule is a node that its inbounds lead to and that leads to its target, and
nothing else about the draft changes. -/
theorem lead_spec (d : Draft) (index : Nat) (r : Document.Rule) (sources : List String)
    (target : String) :
    ∃ into out, d.lead true index r sources target =
        { d with
          nodes := d.nodes ++ [d.next (.routing ⟨ruleTag (index + 1) r, predicatesOf r⟩)]
          edges := d.edges ++ into ++ out } ∧
      (∀ e ∈ into, e.source ∈ sources ∧ e.target = d.nextId .routing ∧
        e.priority = (Text.word? index).getD defaultPriority) ∧
      (∀ source ∈ sources, ∃ e ∈ d.edges ++ into,
        e.source = source ∧ e.target = d.nextId .routing) ∧
      ((∀ e ∈ d.edges ++ into, e.source ≠ d.nextId .routing) →
        ∃ e : Edge, out = [e] ∧ e.source = d.nextId .routing ∧ e.target = target) := by
  let added := d.add (.routing ⟨ruleTag (index + 1) r, predicatesOf r⟩)
  obtain ⟨into, hinto, hdrawn, hall⟩ := foldl_link id (fun _ => d.nextId .routing)
    (Text.word? index) sources added
  have hentered : added.linkAll sources (d.nextId .routing) (Text.word? index) =
      { added with edges := d.edges ++ into } := hinto
  obtain ⟨out, hout, -⟩ := link_spec { added with edges := d.edges ++ into }
    (d.nextId .routing) target none
  have hled : d.lead true index r sources target =
      Draft.link { added with edges := d.edges ++ into } (d.nextId .routing) target none := by
    rw [lead, if_pos rfl, ← hentered]
  refine ⟨into, out, hled.trans hout, ?_, hall, fun hfresh => ?_⟩
  · intro e he
    obtain ⟨⟨source, hsource, hends⟩, hpriority⟩ := hdrawn e he
    exact ⟨hends.1 ▸ hsource, hends.2, hpriority⟩
  · obtain ⟨e, he, hends⟩ := link_new (d := { added with edges := d.edges ++ into })
      (d.nextId .routing) target none fun e he h => hfresh e he h.1
    refine ⟨e, ?_, hends⟩
    have hedges := congrArg Draft.edges (hout.symm.trans he)
    exact List.append_cancel_left hedges

end Draft
end ProxyPlan.Import
