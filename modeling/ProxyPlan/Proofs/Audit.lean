/-
ProxyPlan.Proofs.Audit — what a graph is like when a code is not reported.

A report sorts the issues by weight and loses none of them, so a code that it
does not have is the code of no issue. Each theorem after that reads off one
code what its absence says about the graph.

The last part says which codes each check can report (`Among`). As every code belongs
to one check of the table of all checks (`checks`), whatever is reported with it comes
from that check, and is reported where the check shows it (`reported_iff`).
-/
import ProxyPlan.Audit.Report
import ProxyPlan.Proofs.Graph
import ProxyPlan.Proofs.Tally

namespace ProxyPlan.Audit

variable {g : Graph}

@[simp] theorem mem_when {α : Type} {wrong : Bool} {a found : α} :
    a ∈ when wrong found ↔ wrong = true ∧ a = found := by
  cases wrong <;> simp [when]

@[simp] theorem when_eq_nil {α : Type} {wrong : Bool} {found : α} :
    when wrong found = [] ↔ wrong = false := by
  cases wrong <;> simp [when]

/-- A report sorts the issues by weight and loses none of them. -/
theorem all_perm (issues : List Issue) : (Report.ofIssues issues).all.Perm issues := by
  induction issues with
  | nil => exact .refl _
  | cons i rest ih =>
    refine .trans ?_ (ih.cons i)
    simp only [Report.all, Report.ofIssues, List.filter_cons]
    cases i.level with
    | error => exact .refl _
    | warning => exact List.perm_middle.append_right _
    | info => exact List.perm_middle

theorem mem_all {issues : List Issue} {i : Issue} :
    i ∈ (Report.ofIssues issues).all ↔ i ∈ issues :=
  (all_perm issues).mem_iff

/-- A code that a report does not have is the code of no issue. -/
theorem code_ne {code : String} (h : (check g).hasCode code = false) {i : Issue}
    (hi : i ∈ issues g) : i.code ≠ code := by
  have hall := List.any_eq_false.mp h i (mem_all.mpr hi)
  simpa using hall

/-- No issue of a valid graph is an error. -/
theorem level_ne_of_isValid (h : (check g).isValid = true) {i : Issue} (hi : i ∈ issues g) :
    i.level ≠ .error := by
  intro hlevel
  have herrors : i ∈ (check g).errors := List.mem_filter.mpr ⟨hi, decide_eq_true hlevel⟩
  rw [List.isEmpty_iff.mp h] at herrors
  cases herrors

/-- A valid graph has no code of errors. -/
theorem not_hasCode_of_isValid (h : (check g).isValid = true) {code : String}
    (herror : ∀ f : Finding, f.code = code → f.level = .error) :
    (check g).hasCode code = false := by
  simp only [Report.hasCode, List.any_eq_false, beq_iff_eq]
  intro i hi hcode
  exact level_ne_of_isValid h (mem_all.mp hi) (herror i.finding hcode)

/-- A valid graph has no blank or shared tags, and no edges that are refused or lead nowhere. -/
theorem clean_of_isValid (h : (check g).isValid = true) {code : String}
    (hcode : code ∈ ["N001", "S001", "S010", "S011"]) : (check g).hasCode code = false := by
  refine not_hasCode_of_isValid h fun f hf => ?_
  subst hf
  cases f <;> simp_all [Finding.code, Finding.level]

/-- Loops are errors. -/
theorem level_of_loop {f : Finding} (h : f.code = "S009") : f.level = .error := by
  cases f <;> simp_all [Finding.code, Finding.level]

theorem mem_issues_of_node {n : Node} {i : Issue} (hn : n ∈ g.nodes) (hi : i ∈ nodeIssues n) :
    i ∈ issues g := by
  simp only [issues, List.mem_append, List.mem_flatMap]
  exact .inl (.inl (.inl ⟨n, hn, hi⟩))

theorem mem_issues_of_transport {i : Issue} (hi : i ∈ transportsBetweenGroups g) :
    i ∈ issues g := by
  simp [issues, hi]

theorem mem_issues_of_dangling {i : Issue} (hi : i ∈ danglingEdges g) : i ∈ issues g := by
  simp [issues, structureIssues, hi]

theorem mem_issues_of_refused {i : Issue} (hi : i ∈ refusedEdges g) : i ∈ issues g := by
  simp [issues, structureIssues, hi]

theorem mem_issues_of_shared {i : Issue} (hi : i ∈ sharedTags g.nodes) : i ∈ issues g := by
  simp [issues, structureIssues, hi]

/-- Without N001 no tag is blank. -/
theorem not_blank_of_not_n001 (h : (check g).hasCode "N001" = false) {n : Node}
    (hn : n ∈ g.nodes) {tag : String} (htag : n.tag? = some tag) : Text.blank tag = false := by
  by_contra hblank
  replace hblank : Text.blank tag = true := by simpa using hblank
  have hi : Issue.atNode n.id (.noTag n.kind n.id) ∈ nodeIssues n := by
    simp [nodeIssues, htag, hblank, when]
  exact code_ne h (mem_issues_of_node hn hi) rfl

/-- Without S011 every edge joins two nodes. -/
theorem isLink_of_not_s011 (h : (check g).hasCode "S011" = false) {e : Edge} (he : e ∈ g.edges) :
    g.isLink e = true := by
  by_contra hlink
  have hmem : e ∈ g.dangling := List.mem_filter.mpr ⟨he, by simpa using hlink⟩
  have hi : Issue.atEdge e.id (.unknownNode e.id
      (if (g.source? e).isNone then e.source else e.target)) ∈ danglingEdges g :=
    List.mem_map.mpr ⟨e, hmem, rfl⟩
  exact code_ne h (mem_issues_of_dangling hi) rfl

/-- In a valid graph every edge joins two nodes. -/
theorem isLink_of_isValid (h : (check g).isValid = true) : ∀ e ∈ g.edges, g.isLink e = true := by
  intro e he
  exact isLink_of_not_s011 (clean_of_isValid h (by simp)) he

theorem mayLead_of_refusal? {s t : Kind} (h : refusal? s t = none) : s.mayLead t = true := by
  simp only [refusal?] at h
  split at h
  · cases h
  · split at h
    · assumption
    · cases h

/-- Without S010 every link joins kinds that may be joined. -/
theorem mayLead_of_not_s010 (h : (check g).hasCode "S010" = false) {e : Edge}
    (he : e ∈ g.edges) {s t : Node} (hs : g.source? e = some s) (ht : g.target? e = some t) :
    s.kind.mayLead t.kind = true := by
  cases hr : refusal? s.kind t.kind with
  | none => exact mayLead_of_refusal? hr
  | some reason =>
    have hi : Issue.atBoth s.id e.id
        (.refusedEdge e.id (Node.displayName s) (Node.displayName t) reason) ∈
          refusedEdges g :=
      List.mem_flatMap.mpr ⟨e, he, by simp [hs, ht, hr]⟩
    exact absurd rfl (code_ne h (mem_issues_of_refused hi))

/-- Without S001 two nodes have different tags, white space around them aside. -/
theorem eq_of_not_s001 (h : (check g).hasCode "S001" = false) {n m : Node} (hn : n ∈ g.nodes)
    (hm : m ∈ g.nodes) {tag : String} (hnt : plainTag? n = some tag)
    (hmt : plainTag? m = some tag) : n = m := by
  by_contra hne
  have holders : 1 < g.nodes.countP fun k => plainTag? k = some tag := by
    rw [List.countP_eq_length_filter]
    have hn' : n ∈ g.nodes.filter fun k => plainTag? k = some tag := by simp [hn, hnt]
    have hm' : m ∈ g.nodes.filter fun k => plainTag? k = some tag := by simp [hm, hmt]
    match hl : g.nodes.filter fun k => plainTag? k = some tag with
    | [] => simp [hl] at hn'
    | [k] =>
      rw [hl] at hn' hm'
      exact absurd ((List.mem_singleton.mp hn').trans (List.mem_singleton.mp hm').symm) hne
    | _ :: _ :: _ => simp
  have hi : Issue.atNode n.id (.sharedTag tag (g.nodes.countP fun k => plainTag? k = some tag)) ∈
      sharedTags g.nodes := by
    rw [sharedTags_eq]
    exact List.mem_flatMap.mpr ⟨n, hn, by simp [hnt, when, holders]⟩
  exact code_ne h (mem_issues_of_shared hi) rfl

/-! ## Which check a code comes from -/

section

variable {α β : Type} {code : α → String} {codes : List String}

/-- All members of a list have one of these codes. -/
def Among (code : α → String) (codes : List String) (found : List α) : Prop :=
  ∀ a ∈ found, code a ∈ codes

theorem among_nil : Among code codes [] := by simp [Among]

theorem among_single {a : α} (h : code a ∈ codes) : Among code codes [a] := by
  simpa [Among] using h

theorem among_when {wrong : Bool} {a : α} (h : code a ∈ codes) :
    Among code codes (when wrong a) := by
  intro b hb
  rwa [(mem_when.mp hb).2]

theorem Among.append {l₁ l₂ : List α} (h₁ : Among code codes l₁) (h₂ : Among code codes l₂) :
    Among code codes (l₁ ++ l₂) := by
  intro a ha
  obtain ha | ha := List.mem_append.mp ha
  · exact h₁ a ha
  · exact h₂ a ha

theorem Among.flatMap {l : List β} {f : β → List α} (h : ∀ b, Among code codes (f b)) :
    Among code codes (l.flatMap f) := by
  intro a ha
  obtain ⟨b, -, ha⟩ := List.mem_flatMap.mp ha
  exact h b a ha

theorem Among.map {code' : β → String} {l : List β} {f : β → α} (h : Among code' codes l)
    (hf : ∀ b, code (f b) = code' b) : Among code codes (l.map f) := by
  intro a ha
  obtain ⟨b, hb, rfl⟩ := List.mem_map.mp ha
  rw [hf]
  exact h b hb

theorem Among.mono {l : List α} {codes' : List String} (h : Among code codes l)
    (hsub : ∀ c ∈ codes, c ∈ codes') : Among code codes' l :=
  fun a ha => hsub _ (h a ha)

/-- A code that no member can have picks out none of them. -/
theorem Among.filter_eq_nil {l : List α} (h : Among code codes l) {c : String}
    (hc : c ∉ codes) : (l.filter fun a => code a = c) = [] := by
  simp only [List.filter_eq_nil_iff, decide_eq_true_eq]
  intro a ha heq
  exact hc (heq ▸ h a ha)

end

/-! ### Checks of single nodes and transports -/

theorem among_userFindings (c : Inbound) (u : User) :
    Among Finding.code ["N004", "N005"] (userFindings c u) := by
  unfold userFindings
  split
  case h_1 | h_2 | h_3 => exact among_when (by simp [Finding.code])
  case h_4 | h_5 | h_6 | h_7 => exact among_nil

theorem among_inboundFindings (c : Inbound) :
    Among Finding.code ["N002", "N003", "N004", "N005"] (inboundFindings c) := by
  have husers : Among Finding.code ["N002", "N003", "N004", "N005"]
      (c.users.flatMap (userFindings c)) :=
    .flatMap fun u => (among_userFindings c u).mono (by simp)
  refine .append (.append (among_when (by simp [Finding.code])) ?_) husers
  split
  · exact among_when (by simp [Finding.code])
  · exact among_nil

theorem among_routingFindings (c : Routing) :
    Among Finding.code ["N006", "N009"] (routingFindings c) := by
  refine .append ?port ?network
  case port =>
    split
    · exact among_when (by simp [Finding.code])
    · exact among_nil
  case network =>
    split
    · exact among_when (by simp [Finding.code])
    · exact among_nil

theorem among_proxyFindings (c : Proxy) :
    Among Finding.code ["N007", "N008"] (proxyFindings c) :=
  .append (among_when (by simp [Finding.code])) (among_when (by simp [Finding.code]))

theorem among_roleFindings (r : Role) :
    Among Finding.code ["N002", "N003", "N004", "N005", "N006", "N007", "N008", "N009"]
      (roleFindings r) := by
  cases r with
  | inbound c => exact (among_inboundFindings c).mono (by simp)
  | routing c => exact (among_routingFindings c).mono (by simp)
  | proxy c => exact (among_proxyFindings c).mono (by simp)
  | device c => exact among_nil
  | balancer c => exact among_nil
  | terminal c => exact among_nil

/-- Nothing is wrong with the configurations of a valid graph: whatever the check of a
single node finds in one is an error. -/
theorem roleFindings_of_isValid (h : (check g).isValid = true) {n : Node} (hn : n ∈ g.nodes) :
    roleFindings n.role = [] := by
  rw [List.eq_nil_iff_forall_not_mem]
  intro f hf
  have hlevel : f.level = .error := by
    have hcode := among_roleFindings n.role f hf
    cases f <;> simp_all [Finding.code, Finding.level]
  have hi : Issue.atNode n.id f ∈ nodeIssues n :=
    List.mem_map_of_mem (List.mem_append_right _ hf)
  exact level_ne_of_isValid h (mem_issues_of_node hn hi) hlevel

theorem among_nodeIssues (n : Node) :
    Among Issue.code ["N001", "N002", "N003", "N004", "N005", "N006", "N007", "N008", "N009"]
      (nodeIssues n) := by
  refine Among.map (Among.append ?_ ((among_roleFindings n.role).mono (by simp))) fun _ => rfl
  split
  · exact among_when (by simp [Finding.code])
  · exact among_nil

theorem among_securityFindings (edge : String) (t : Transport) :
    Among Finding.code ["T001", "T002", "T003", "T004"] (securityFindings edge t) := by
  unfold securityFindings
  split
  case h_1 =>
    exact .append (.append (.append (among_when (by simp [Finding.code]))
      (among_when (by simp [Finding.code]))) (among_when (by simp [Finding.code])))
      (among_when (by simp [Finding.code]))
  case h_2 => exact among_when (by simp [Finding.code])
  case h_3 => exact among_nil

theorem among_networkFindings (edge : String) (t : Transport) :
    Among Finding.code ["T005", "T006"] (networkFindings edge t) := by
  unfold networkFindings
  split
  case h_1 | h_2 => exact among_when (by simp [Finding.code])
  case h_3 | h_4 => exact among_nil

theorem among_transportsBetweenGroups (g : Graph) :
    Among Issue.code ["T001", "T002", "T003", "T004", "T005", "T006"]
      (transportsBetweenGroups g) := by
  refine .flatMap fun e => ?_
  split
  case h_1 t _ =>
    split
    · exact Among.map (Among.append ((among_securityFindings e.id t).mono (by simp))
        ((among_networkFindings e.id t).mono (by simp))) fun _ => rfl
    · exact among_nil
  case h_2 => exact among_nil

/-! ### Checks of nodes and edges against each other -/

theorem among_danglingEdges (g : Graph) : Among Issue.code ["S011"] (danglingEdges g) := by
  intro i hi
  obtain ⟨e, -, rfl⟩ := List.mem_map.mp hi
  simp [Issue.code, Issue.atEdge, Finding.code]

theorem among_refusedEdges (g : Graph) : Among Issue.code ["S010"] (refusedEdges g) := by
  refine .flatMap fun e => ?_
  split
  case h_1 =>
    split
    · exact among_single (by simp [Issue.code, Issue.atBoth, Finding.code])
    · exact among_nil
  case h_2 => exact among_nil

theorem among_sharedTags (nodes : List Node) : Among Issue.code ["S001"] (sharedTags nodes) := by
  refine .flatMap fun n => ?_
  split
  · exact among_when (by simp [Issue.code, Issue.atNode, Finding.code])
  · exact among_nil

theorem among_sharedPorts (nodes : List Node) : Among Issue.code ["S002"] (sharedPorts nodes) := by
  refine .flatMap fun n => ?_
  split
  · exact among_when (by simp [Issue.code, Issue.atNode, Finding.code])
  · exact among_nil

theorem among_deviceProtocols (g : Graph) : Among Issue.code ["S005"] (deviceProtocols g) := by
  refine .flatMap fun e => ?_
  split
  case h_1 =>
    split
    case h_1 =>
      dsimp only
      split
      · exact among_nil
      · simp [Among, Issue.code, Issue.atBoth, Finding.code]
    case h_2 => exact among_nil
  case h_2 => exact among_nil

theorem among_atNodes {codes : List String} {nodes : List Node} {test : Node → Bool}
    {found : String → Finding} (h : ∀ name, (found name).code ∈ codes) :
    Among Issue.code codes (atNodes nodes test found) := by
  intro i hi
  obtain ⟨n, -, rfl⟩ := List.mem_map.mp hi
  exact h (Node.displayName n)

theorem among_unknownInbounds (nodes : List Node) (n : Node) :
    Among Issue.code ["R001"] (unknownInbounds nodes n) := by
  unfold unknownInbounds
  split
  case h_1 =>
    split
    · exact among_when (by simp [Issue.code, Issue.atNode, Finding.code])
    · exact among_nil
  case h_2 => exact among_nil

theorem among_idleSelectors (nodes : List Node) (n : Node) :
    Among Issue.code ["R002"] (idleSelectors nodes n) := by
  unfold idleSelectors
  split
  case h_1 => exact .flatMap fun s => among_when (by simp [Issue.code, Issue.atNode, Finding.code])
  case h_2 => exact among_nil

theorem among_referenceIssues (nodes : List Node) :
    Among Issue.code ["R001", "R002"] (referenceIssues nodes) :=
  .flatMap fun n => ((among_unknownInbounds nodes n).mono (by simp)).append
    ((among_idleSelectors nodes n).mono (by simp))

theorem among_loops (g : Graph) : Among Issue.code ["S009"] (loops g) := by
  unfold loops
  split
  case h_1 => exact among_single (by simp [Issue.code, Issue.atNode, Finding.code])
  case h_2 => exact among_nil

/-! ### All checks -/

/-- The checks of a graph in their order, each with the codes it can report. -/
def checks (g : Graph) : List (List String × List Issue) :=
  [(["N001", "N002", "N003", "N004", "N005", "N006", "N007", "N008", "N009"],
      g.nodes.flatMap nodeIssues),
    (["T001", "T002", "T003", "T004", "T005", "T006"], transportsBetweenGroups g),
    (["S011"], danglingEdges g), (["S010"], refusedEdges g), (["S001"], sharedTags g.nodes),
    (["S002"], sharedPorts g.nodes), (["S003"], inboundsWithoutExit g),
    (["S004"], inboundsForClients g), (["S005"], deviceProtocols g),
    (["S006"], unusedOutbounds g), (["S007"], endsOfChains g),
    (["S008"], inboundsWithoutDestination g), (["S009"], loops g),
    (["R001", "R002"], referenceIssues g.nodes)]

theorem issues_eq_checks (g : Graph) : issues g = (checks g).flatMap Prod.snd := by
  simp [issues, structureIssues, checks]

/-- No check reports a code that is not its own. -/
theorem among_checks (g : Graph) : ∀ c ∈ checks g, Among Issue.code c.1 c.2 := by
  simp only [checks, List.forall_mem_cons, List.not_mem_nil, false_implies, implies_true, and_true]
  exact ⟨.flatMap among_nodeIssues, among_transportsBetweenGroups g, among_danglingEdges g,
    among_refusedEdges g, among_sharedTags g.nodes, among_sharedPorts g.nodes,
    among_atNodes fun _ => by simp [Finding.code], among_atNodes fun _ => by simp [Finding.code],
    among_deviceProtocols g, among_atNodes fun _ => by simp [Finding.code],
    among_atNodes fun _ => by simp [Finding.code], among_atNodes fun _ => by simp [Finding.code],
    among_loops g, among_referenceIssues g.nodes⟩

/-- The issues with a code are those of the one check that can report it. -/
theorem filter_issues {code : String} {codes : List String} {found : List Issue}
    (hsole : ((checks g).filter fun c => c.1.contains code) = [(codes, found)]) :
    ((issues g).filter fun i => i.code = code) = found.filter fun i => i.code = code := by
  have hskip : ∀ all : List (List String × List Issue), (∀ c ∈ all, Among Issue.code c.1 c.2) →
      ((all.flatMap Prod.snd).filter fun i => i.code = code) =
        (all.filter fun c => c.1.contains code).flatMap fun c =>
          c.2.filter fun i => i.code = code := by
    intro all hall
    induction all with
    | nil => rfl
    | cons c rest ih =>
      obtain ⟨hc, hrest⟩ := List.forall_mem_cons.mp hall
      rw [List.flatMap_cons, List.filter_append, ih hrest, List.filter_cons]
      split
      case isTrue => rfl
      case isFalse hcode => rw [hc.filter_eq_nil (by simpa using hcode), List.nil_append]
  rw [issues_eq_checks, hskip _ (among_checks g), hsole]
  simp

/-- A code of errors is looked up in a report as among the issues. -/
theorem filter_all_of_error {issues : List Issue} {c : String}
    (h : ∀ i ∈ issues, i.code = c → i.level = .error) :
    ((Report.ofIssues issues).all.filter fun i => i.code = c) =
      issues.filter fun i => i.code = c := by
  have hothers : ∀ level, level ≠ Level.error →
      ((issues.filter fun i => i.level = level).filter fun i => i.code = c) = [] := by
    intro level hlevel
    simp only [List.filter_eq_nil_iff, List.mem_filter, decide_eq_true_eq]
    rintro i ⟨hi, rfl⟩ hcode
    exact hlevel (h i hi hcode)
  have herrors : ((issues.filter fun i => i.level = .error).filter fun i => i.code = c) =
      issues.filter fun i => i.code = c := by
    rw [List.filter_filter]
    refine List.filter_congr fun i hi => ?_
    by_cases hcode : i.code = c
    · simp [hcode, h i hi hcode]
    · simp [hcode]
  simp only [Report.all, Report.ofIssues, List.filter_append, herrors, hothers .warning (by simp),
    hothers .info (by simp), List.append_nil]

/-- A code of errors that one check reports, and no other, stands for what that check found. -/
theorem filter_check {g : Graph} {code : String} {found : List Issue}
    (hlevel : ∀ f : Finding, f.code = code → f.level = .error)
    (hsole : ((checks g).filter fun c => c.1.contains code) = [([code], found)]) :
    ((check g).all.filter fun i => i.code = code) = found := by
  have hfound : ([code], found) ∈ checks g := by
    have hmem := List.mem_singleton_self ([code], found)
    rw [← hsole] at hmem
    exact List.mem_of_mem_filter hmem
  rw [check, filter_all_of_error fun i _ => hlevel i.finding, filter_issues hsole,
    List.filter_eq_self]
  intro i hi
  simpa using among_checks g _ hfound i hi

/-- Loops are reported by one check only, and as errors. -/
theorem filter_check_loop (g : Graph) :
    ((check g).all.filter fun i => i.code = "S009") = loops g :=
  filter_check (fun _ => level_of_loop) (by simp [checks])

/-! ### What is reported at a node -/

/-- A check of the graph reports a code at a node. -/
def Reported (g : Graph) (code id : String) : Prop :=
  ∃ i ∈ (check g).all, i.code = code ∧ i.node = some id

instance (g : Graph) (code id : String) : Decidable (Reported g code id) :=
  inferInstanceAs (Decidable (∃ i ∈ (check g).all, i.code = code ∧ i.node = some id))

/-- A code is reported at a node by the one check that can report it. -/
theorem reported_iff {code id : String} {codes : List String} {found : List Issue}
    (hsole : ((checks g).filter fun c => c.1.contains code) = [(codes, found)]) :
    Reported g code id ↔ ∃ i ∈ found, i.code = code ∧ i.node = some id := by
  have hfound : ∀ i, i ∈ (check g).all ∧ i.code = code ↔ i ∈ found ∧ i.code = code := by
    intro i
    have hfilter := congrArg (i ∈ ·) (filter_issues hsole)
    simpa [check, mem_all] using hfilter
  simp only [Reported, ← and_assoc, hfound]

/-- A code that nodes are tested for is reported at those that the test picks out. -/
theorem reported_atNodes {code id : String} {codes : List String} {test : Node → Bool}
    {finding : String → Finding}
    (hsole : ((checks g).filter fun c => c.1.contains code) =
      [(codes, atNodes g.nodes test finding)])
    (hcode : ∀ name, (finding name).code = code) :
    Reported g code id ↔ ∃ n ∈ g.nodes, n.id = id ∧ test n = true := by
  rw [reported_iff hsole]
  constructor
  · rintro ⟨i, hi, -, hid⟩
    obtain ⟨n, hn, rfl⟩ := List.mem_map.mp hi
    obtain ⟨hn, htest⟩ := List.mem_filter.mp hn
    exact ⟨n, hn, Option.some.inj hid, htest⟩
  · rintro ⟨n, hn, rfl, htest⟩
    exact ⟨_, List.mem_map.mpr ⟨n, List.mem_filter.mpr ⟨hn, htest⟩, rfl⟩, hcode _, rfl⟩

end ProxyPlan.Audit
