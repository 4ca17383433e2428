/-
ProxyPlan.Proofs.Choices — where the picker has a say.

A balancer chooses among its candidates (`candidates`), and only a random one leaves the
choice to the picker (`leavesOpen`). So what the picker is asked along a walk can be read
off the nodes that the walk meets, without looking at its answers: `asked?` says how many
candidates it is shown at a node, if any. A decision adds just this to the record of
calls (`decision_calls`), and a walk adds what its nodes ask for, each once
(`Way.calls_eq`).

Whatever the picker answers, the choice is one of the candidates (`Picks`). Where there is
only one candidate every answer comes to the same choice, so two pickers lead to the same
decision up to the record (`decision_recorded`), and by induction on the walk to the same
trace.
-/
import ProxyPlan.Proofs.Walk

namespace ProxyPlan.Trace

variable {g : Graph} {pick : Picker} {r : Request}

/-! ## What is asked -/

/-- The links that a balancer chooses among. -/
def candidates (g : Graph) (n : Node) : List Exit :=
  match n.role with
  | .balancer c => (exits g n.id).filter (isCandidate c)
  | _ => []

/-- The node is a balancer that leaves its choice to the picker. -/
def leavesOpen (n : Node) : Bool :=
  match n.role with
  | .balancer c => c.strategy = .random
  | _ => false

/-- How many candidates the picker is shown at a node, if it is asked there. -/
def asked? (g : Graph) (n : Node) : Option Nat :=
  if leavesOpen n = true ∧ candidates g n ≠ [] then some (candidates g n).length else none

/-- The steps at nodes that are met for the first time. -/
def met (t : Trace) : List Step := t.steps.filter fun s => s.remark ≠ .revisited

theorem candidates_balancer {n : Node} {c : Balancer} (h : n.role = .balancer c) :
    candidates g n = (exits g n.id).filter (isCandidate c) := by
  unfold candidates
  rw [h]

theorem leavesOpen_iff {n : Node} :
    leavesOpen n = true ↔ ∃ c, n.role = .balancer c ∧ c.strategy = .random := by
  unfold leavesOpen
  cases n.role <;> simp

theorem asked?_eq_some {n : Node} {count : Nat} :
    asked? g n = some count ↔
      leavesOpen n = true ∧ count = (candidates g n).length ∧ 1 ≤ count := by
  unfold asked?
  split
  case isTrue h =>
    have hsome : 1 ≤ (candidates g n).length := List.length_pos_iff.mpr h.2
    simp only [Option.some.injEq, h.1, true_and]
    omega
  case isFalse h =>
    simp only [reduceCtorEq, false_iff]
    rintro ⟨hopen, rfl, hsome⟩
    exact h ⟨hopen, List.length_pos_iff.mp hsome⟩

/-! ## One choice -/

theorem choose_lt (pick : Picker) (calls : List Nat) (strategy : Strategy) {count : Nat}
    (h : 1 ≤ count) : (choose pick calls strategy count).1 < count := by
  cases strategy with
  | random =>
    simp only [choose]
    omega
  | roundRobin => exact h
  | leastPing => exact h

/-- Among fewer than two there is nothing to choose. -/
theorem choose_eq_zero (pick : Picker) (calls : List Nat) {strategy : Strategy} {count : Nat}
    (h : strategy = .random → count < 2) : (choose pick calls strategy count).1 = 0 := by
  cases strategy with
  | random =>
    have hfew : count < 2 := h rfl
    simp only [choose]
    omega
  | roundRobin => rfl
  | leastPing => rfl

/-- What it means that a balancer picks a link: it is one of the candidates, the one that
the strategy says, whatever the picker answers. -/
structure Picks (g : Graph) (pick : Picker) (earlier : List Nat) (n : Node) (strategy : Strategy)
    (choice count : Nat) (x : Exit) : Prop where
  role : ∃ c, n.role = .balancer c ∧ c.strategy = strategy
  total : count = (candidates g n).length
  below : choice < count
  chosen : choice = (choose pick earlier strategy count).1
  exit : (candidates g n)[choice]? = some x

/-! ## One node -/

/-- The decision with another record of calls. -/
def Decision.recording (calls : List Nat) : Decision → Decision
  | .keep remark ending => .keep remark ending
  | .pass remark x _ => .pass remark x calls

/-- What a decision says. -/
def Decision.remark : Decision → Remark
  | .keep remark _ => remark
  | .pass remark _ _ => remark

theorem atBalancer_of_candidates {calls : List Nat} {n : Node} {c : Balancer} {links : List Exit}
    {y : Exit} {rest : List Exit} (h : links.filter (isCandidate c) = y :: rest) :
    atBalancer pick calls n c links =
      .pass (.picked c.strategy (choose pick calls c.strategy (rest.length + 1)).1
          (rest.length + 1))
        ((y :: rest).getD (choose pick calls c.strategy (rest.length + 1)).1 y)
        (choose pick calls c.strategy (rest.length + 1)).2 := by
  cases links with
  | nil => cases h
  | cons x links => simp only [atBalancer, h]

/-- Candidates are there at balancers only. -/
theorem role_of_candidates {n : Node} (h : candidates g n ≠ []) : ∃ c, n.role = .balancer c := by
  unfold candidates at h
  cases hrole : n.role with
  | balancer c => exact ⟨c, rfl⟩
  | inbound c => simp [hrole] at h
  | routing c => simp [hrole] at h
  | proxy c => simp [hrole] at h
  | terminal c => simp [hrole] at h
  | device c => simp [hrole] at h

theorem asked?_of_no_candidates {n : Node} (h : candidates g n = []) : asked? g n = none := by
  simp [asked?, h]

/-- What a choice adds to the record. -/
theorem choose_calls {n : Node} {c : Balancer} (hrole : n.role = .balancer c)
    (h : candidates g n ≠ []) (pick : Picker) (calls : List Nat) :
    (choose pick calls c.strategy (candidates g n).length).2 = calls ++ (asked? g n).toList := by
  unfold asked? leavesOpen
  rw [hrole]
  cases hstrategy : c.strategy with
  | random => simp [choose, h, hstrategy]
  | roundRobin => simp [choose, hstrategy]
  | leastPing => simp [choose, hstrategy]

section

variable [Rule.Patterns]

/-- A balancer with candidates picks one of them. -/
theorem decision_balancer {n : Node} {c : Balancer} (hrole : n.role = .balancer c)
    (h : candidates g n ≠ []) (pick : Picker) (calls : List Nat) :
    ∃ x, Picks g pick calls n c.strategy
        (choose pick calls c.strategy (candidates g n).length).1 (candidates g n).length x ∧
      decision g pick r calls n =
        .pass (.picked c.strategy (choose pick calls c.strategy (candidates g n).length).1
          (candidates g n).length) x
          (choose pick calls c.strategy (candidates g n).length).2 := by
  obtain ⟨y, rest, hcandidates⟩ := List.exists_cons_of_ne_nil h
  have hbelow := choose_lt pick calls c.strategy (List.length_pos_iff.mpr h)
  refine ⟨(candidates g n).getD (choose pick calls c.strategy (candidates g n).length).1 y,
    ⟨⟨c, hrole, rfl⟩, rfl, hbelow, rfl, ?exit⟩, ?decided⟩
  case exit =>
    rw [List.getD_eq_getElem?_getD, List.getElem?_eq_getElem hbelow, Option.getD_some]
  case decided =>
    unfold decision
    rw [hrole, hcandidates, List.length_cons]
    exact atBalancer_of_candidates ((candidates_balancer hrole).symm.trans hcandidates)

/-- A node with nothing to choose among does not look at the picker; it leaves the record
as it is, and does not say that it picks. -/
theorem decision_of_no_candidates {n : Node} (h : candidates g n = []) (pick pick' : Picker)
    (calls calls' : List Nat) :
    decision g pick' r calls' n = (decision g pick r calls n).recording calls' ∧
      ∀ strategy choice count,
        (decision g pick r calls n).remark ≠ .picked strategy choice count := by
  unfold decision
  cases hrole : n.role with
  | inbound c =>
    simp only [atInbound]
    split
    · exact ⟨rfl, by simp [Decision.remark]⟩
    split
    · exact ⟨rfl, by simp [Decision.remark]⟩
    split
    · exact ⟨rfl, by simp [Decision.remark]⟩
    · exact ⟨rfl, by simp [Decision.remark]⟩
  | routing c =>
    cases exits g n.id with
    | nil => exact ⟨rfl, by simp [atRouting, Decision.remark]⟩
    | cons x links => exact ⟨rfl, by simp [atRouting, Decision.remark]⟩
  | balancer c =>
    rw [candidates_balancer hrole] at h
    cases hexits : exits g n.id with
    | nil => exact ⟨rfl, by simp [atBalancer, Decision.remark]⟩
    | cons x links =>
      rw [hexits] at h
      simp only [atBalancer, h]
      exact ⟨rfl, by simp [Decision.remark]⟩
  | proxy c =>
    simp only [atProxy]
    split
    · exact ⟨rfl, by simp [Decision.remark]⟩
    · exact ⟨rfl, by simp [Decision.remark]⟩
  | terminal c => exact ⟨rfl, by simp [Decision.remark]⟩
  | device c => exact ⟨rfl, by simp [Decision.remark]⟩

/-- A node adds to the record what it asks for. -/
theorem decision_calls {calls after : List Nat} {n : Node} {remark : Remark} {x : Exit}
    (hpass : decision g pick r calls n = .pass remark x after) :
    after = calls ++ (asked? g n).toList := by
  by_cases h : candidates g n = []
  case pos =>
    have hsame := (decision_of_no_candidates (r := r) h pick pick calls calls).1
    rw [hpass] at hsame
    cases hsame
    rw [asked?_of_no_candidates h, Option.toList_none, List.append_nil]
  case neg =>
    obtain ⟨c, hrole⟩ := role_of_candidates h
    obtain ⟨y, -, hdecision⟩ := decision_balancer (r := r) hrole h pick calls
    cases hdecision.symm.trans hpass
    exact choose_calls hrole h pick calls

/-- A node that keeps a request has nothing to choose among. -/
theorem candidates_of_keep {calls : List Nat} {n : Node} {remark : Remark} {ending : Ending}
    (hkeep : decision g pick r calls n = .keep remark ending) : candidates g n = [] := by
  by_contra h
  obtain ⟨c, hrole⟩ := role_of_candidates h
  obtain ⟨y, -, hdecision⟩ := decision_balancer (r := r) hrole h pick calls
  cases hdecision.symm.trans hkeep

/-- A node that keeps a request picks nothing. -/
theorem remark_of_keep {calls : List Nat} {n : Node} {remark : Remark} {ending : Ending}
    (hkeep : decision g pick r calls n = .keep remark ending) (strategy : Strategy)
    (choice count : Nat) : remark ≠ .picked strategy choice count := by
  have hremark := (decision_of_no_candidates (r := r) (candidates_of_keep hkeep) pick pick calls
    calls).2 strategy choice count
  rw [hkeep] at hremark
  exact hremark

/-- What is said to be picked is picked. -/
theorem decision_picks {calls after : List Nat} {n : Node} {strategy : Strategy}
    {choice count : Nat} {x : Exit}
    (hpass : decision g pick r calls n = .pass (.picked strategy choice count) x after) :
    Picks g pick calls n strategy choice count x := by
  by_cases h : candidates g n = []
  case pos =>
    have hremark :=
      (decision_of_no_candidates (r := r) h pick pick calls calls).2 strategy choice count
    rw [hpass] at hremark
    exact absurd rfl hremark
  case neg =>
    obtain ⟨c, hrole⟩ := role_of_candidates h
    obtain ⟨y, hpicks, hdecision⟩ := decision_balancer (r := r) hrole h pick calls
    cases hdecision.symm.trans hpass
    exact hpicks

/-- Where the picker is asked, the request is passed on as it answers. -/
theorem remark_of_asked {calls after : List Nat} {n : Node} {remark : Remark} {x : Exit}
    {count : Nat} (hpass : decision g pick r calls n = .pass remark x after)
    (hasked : asked? g n = some count) : ∃ choice, remark = .picked .random choice count := by
  obtain ⟨hopen, rfl, hsome⟩ := asked?_eq_some.mp hasked
  obtain ⟨c, hrole, hrandom⟩ := leavesOpen_iff.mp hopen
  obtain ⟨y, -, hdecision⟩ :=
    decision_balancer (r := r) hrole (List.length_pos_iff.mp hsome) pick calls
  cases hdecision.symm.trans hpass
  rw [hrandom]
  exact ⟨_, rfl⟩

/-- Where there are not two candidates, the picker has no say. -/
theorem decision_recorded {n : Node} (hfew : ∀ count, asked? g n = some count → count < 2)
    (pick' : Picker) (calls calls' : List Nat) :
    decision g pick' r calls' n =
      (decision g pick r calls n).recording (calls' ++ (asked? g n).toList) := by
  by_cases h : candidates g n = []
  case pos =>
    rw [(decision_of_no_candidates h pick pick' calls calls').1, asked?_of_no_candidates h,
      Option.toList_none, List.append_nil]
  case neg =>
    obtain ⟨c, hrole⟩ := role_of_candidates h
    have hzero : ∀ pick calls, (choose pick calls c.strategy (candidates g n).length).1 = 0 := by
      intro pick calls
      refine choose_eq_zero pick calls ?_
      intro hrandom
      exact hfew _ (asked?_eq_some.mpr ⟨leavesOpen_iff.mpr ⟨c, hrole, hrandom⟩, rfl,
        List.length_pos_iff.mpr h⟩)
    obtain ⟨x, hpicks, hdecision⟩ := decision_balancer (r := r) hrole h pick calls
    obtain ⟨x', hpicks', hdecision'⟩ := decision_balancer (r := r) hrole h pick' calls'
    have hexit : x' = x := by
      have hx := hpicks.exit
      have hx' := hpicks'.exit
      rw [hzero] at hx hx'
      exact Option.some.inj (hx'.symm.trans hx)
    rw [hdecision, hdecision', hzero, hzero, choose_calls hrole h, hexit]
    rfl

/-! ## Walks -/

omit [Rule.Patterns] in
theorem met_onto {s : Step} {e : Edge} {t : Trace} (h : s.remark ≠ .revisited) :
    met (Onto s e t) = s :: met t := by
  simp [met, Onto, h]

namespace Way

variable {visited : List String} {calls : List Nat} {n : Node} {t : Trace}

/-- A way adds to the record what the nodes it meets ask for. -/
theorem calls_eq (h : Way g pick r visited calls n t) (hn : n ∈ g.nodes) :
    t.calls = calls ++ (met t).filterMap fun s => asked? g s.node := by
  induction h with
  | again => simp [revisit, met]
  | kept hnew hkeep =>
    have hremark := (decision_keep hn hkeep).remark_ne
    simp [met, hremark, asked?_of_no_candidates (candidates_of_keep hkeep)]
  | passed hnew hpass _ ih =>
    have hp := decision_pass hpass
    obtain ⟨-, -, -, ht⟩ := mem_exits.mp hp.exit
    rw [met_onto hp.remark_ne]
    simp only [Onto, ih (Graph.node?_mem ht), decision_calls hpass, List.append_assoc]
    cases hasked : asked? g _ with
    | none => simp [hasked]
    | some count => simp [hasked]

/-- Where the picker is asked, a choice is made. -/
theorem picked_of_asked (h : Way g pick r visited calls n t) {s : Step} (hs : s ∈ met t)
    {count : Nat} (hasked : asked? g s.node = some count) :
    ∃ choice, s.remark = .picked .random choice count := by
  induction h with
  | again => simp [revisit, met] at hs
  | kept hnew hkeep =>
    obtain rfl := List.mem_singleton.mp (List.mem_of_mem_filter hs)
    rw [asked?_of_no_candidates (candidates_of_keep hkeep)] at hasked
    cases hasked
  | passed hnew hpass _ ih =>
    rw [met_onto (decision_pass hpass).remark_ne] at hs
    obtain rfl | hs := List.mem_cons.mp hs
    · exact remark_of_asked hpass hasked
    · exact ih hs

/-- A step that says what it picks has picked the edge and the node that come next, with
what was asked before in mind. -/
theorem picks (h : Way g pick r visited calls n t) {k : Nat} {s : Step}
    (hs : t.steps[k]? = some s) {strategy : Strategy} {choice count : Nat}
    (hremark : s.remark = .picked strategy choice count) :
    ∃ x, t.edges[k]? = some x.1 ∧ (t.steps[k + 1]?).map Step.node = some x.2 ∧
      Picks g pick (calls ++ (t.steps.take k).filterMap fun s => asked? g s.node) s.node strategy
        choice count x := by
  induction h generalizing k with
  | again =>
    obtain rfl := List.mem_singleton.mp (List.mem_of_getElem? hs)
    cases hremark
  | kept hnew hkeep =>
    obtain rfl := List.mem_singleton.mp (List.mem_of_getElem? hs)
    exact absurd hremark (remark_of_keep hkeep strategy choice count)
  | @passed _ _ _ _ e next _ _ hnew hpass rest ih =>
    cases k with
    | zero =>
      obtain ⟨s', steps, hsteps, hnode⟩ := rest.head
      obtain rfl := Option.some.inj hs
      subst hremark
      refine ⟨(e, next), rfl, ?_, by simpa using decision_picks hpass⟩
      simp [Onto, hsteps, hnode]
    | succ k =>
      obtain ⟨x, hedge, hnode, hpicks⟩ := ih hs
      refine ⟨x, hedge, hnode, ?_⟩
      rw [decision_calls hpass] at hpicks
      simp only [Onto, List.take_succ_cons, List.filterMap_cons]
      cases hasked : asked? g _ with
      | none => simpa [hasked] using hpicks
      | some count => simpa [hasked] using hpicks

end Way

/-- Where no node that is met has two candidates, all pickers lead the same way. -/
theorem walk_indifferent (pick' : Picker) (room : Nat) (visited : List String)
    (calls calls' : List Nat) (n : Node)
    (hfew : ∀ s ∈ (walk g pick r room visited calls n).steps, ∀ count,
      asked? g s.node = some count → count < 2) :
    ∃ after, walk g pick' r room visited calls' n =
      { walk g pick r room visited calls n with calls := after } := by
  induction room generalizing visited calls calls' n with
  | zero => exact ⟨calls', rfl⟩
  | succ room ih =>
    simp only [walk] at hfew ⊢
    split
    case isTrue => exact ⟨calls', rfl⟩
    case isFalse hnew =>
      rw [if_neg hnew] at hfew
      have hdecision : ∀ count, asked? g n = some count → count < 2 := by
        intro count hcount
        cases hd : decision g pick r calls n with
        | keep remark ending => exact hfew ⟨n, remark⟩ (by simp [hd]) count hcount
        | pass remark x after => exact hfew ⟨n, remark⟩ (by simp [hd]) count hcount
      rw [decision_recorded hdecision pick' calls calls']
      cases hd : decision g pick r calls n with
      | keep remark ending => exact ⟨calls', rfl⟩
      | pass remark x after =>
        simp only [hd] at hfew
        obtain ⟨after', hwalk⟩ := ih (n.id :: visited) after (calls' ++ (asked? g n).toList) x.2
          fun s hs => hfew s (List.mem_cons_of_mem _ hs)
        simp only [Decision.recording, hwalk]
        exact ⟨after', rfl⟩

/-- The picker matters only at a real choice. It is asked once at each random balancer
that a walk meets and that has candidates, and it is shown how many they are; whatever it
answers, the choice is one of them, and the way goes on there. If no random balancer on
the way has two candidates, every other picker, in whatever mood, leads the same way. -/
theorem run_choices (g : Graph) (pick : Picker) (calls : List Nat) (r : Request) :
    ((run g pick calls r).nodeIds.Nodup ∧
      (run g pick calls r).calls =
        calls ++ (met (run g pick calls r)).filterMap fun s => asked? g s.node) ∧
    (∀ s ∈ met (run g pick calls r), ∀ count, asked? g s.node = some count →
      s.node ∈ g.nodes ∧ (∃ c, s.node.role = .balancer c ∧ c.strategy = .random) ∧
        count = (candidates g s.node).length ∧ 1 ≤ count ∧
        ∃ choice, s.remark = .picked .random choice count) ∧
    (∀ k s strategy choice count, (run g pick calls r).steps[k]? = some s →
      s.remark = .picked strategy choice count →
      ∃ x, (run g pick calls r).edges[k]? = some x.1 ∧
        ((run g pick calls r).steps[k + 1]?).map Step.node = some x.2 ∧
        Picks g pick
          (calls ++ ((run g pick calls r).steps.take k).filterMap fun s => asked? g s.node)
          s.node strategy choice count x) ∧
    ((∀ s ∈ (run g pick calls r).steps, leavesOpen s.node = true →
        (candidates g s.node).length < 2) →
      ∀ pick' calls', run g pick' calls' r =
        { run g pick calls r with
          calls := calls' ++ (met (run g pick calls r)).filterMap fun s => asked? g s.node }) := by
  cases hentrance : entrance? g r with
  | none => simp [run, hentrance, nodeIds, met]
  | some n =>
    have hn : n ∈ g.nodes := List.mem_of_find?_eq_some hentrance
    have hway : ∀ pick calls, Way g pick r [] calls n (run g pick calls r) :=
      fun _ _ => run_way hentrance
    refine ⟨⟨((hway pick calls).nodeIds_fresh hn).1, (hway pick calls).calls_eq hn⟩, ?asked,
      fun k s _ _ _ hs hremark => (hway pick calls).picks hs hremark, ?indifferent⟩
    case asked =>
      intro s hs count hasked
      obtain ⟨hopen, hcount, hsome⟩ := asked?_eq_some.mp hasked
      exact ⟨(hway pick calls).node_mem hn s (List.mem_of_mem_filter hs),
        leavesOpen_iff.mp hopen, hcount, hsome, (hway pick calls).picked_of_asked hs hasked⟩
    case indifferent =>
      intro hfew pick' calls'
      have hrun : ∀ pick calls, run g pick calls r = walk g pick r g.ids.length [] calls n := by
        intro pick calls
        unfold run
        rw [hentrance]
      obtain ⟨after, hsame⟩ :
          ∃ after, run g pick' calls' r = { run g pick calls r with calls := after } := by
        rw [hrun, hrun]
        refine walk_indifferent pick' g.ids.length [] calls calls' n ?_
        intro s hs count hasked
        obtain ⟨hopen, rfl, -⟩ := asked?_eq_some.mp hasked
        exact hfew s (hrun pick calls ▸ hs) hopen
      have hcalls : after = calls' ++ (met (run g pick calls r)).filterMap fun s =>
          asked? g s.node := by
        have h := (hway pick' calls').calls_eq hn
        rw [hsame] at h
        exact h
      rw [hsame, hcalls]

end

/-! ### An instance -/

/-- An inbound before a random balancer with one candidate, and behind it one with two. -/
def choosy : Graph where
  nodes := [⟨"in", .origin, .inbound ⟨"in", .socks, "", 1080, none, [], none, none⟩, none⟩,
    ⟨"first", .origin, .balancer ⟨"first", .random, ["a"]⟩, none⟩,
    ⟨"a", .origin, .proxy ⟨"a", .socks, "192.0.2.1", 1080, none, none, none, none⟩, none⟩,
    ⟨"b", .origin, .terminal ⟨"b", .freedom⟩, none⟩,
    ⟨"next", .origin, .inbound ⟨"next", .socks, "", 1080, none, [], none, none⟩, none⟩,
    ⟨"second", .origin, .balancer ⟨"second", .random, []⟩, none⟩]
  edges := [⟨"1", "in", "first", .plain, none⟩, ⟨"2", "first", "b", .plain, none⟩,
    ⟨"3", "first", "a", .plain, none⟩, ⟨"4", "next", "second", .plain, none⟩,
    ⟨"5", "second", "a", .plain, none⟩, ⟨"6", "second", "b", .plain, none⟩]

attribute [local instance] Rule.Patterns.empty

/-- At the first balancer all pickers agree, at the second one they need not; an answer
that is out of range counts as the last candidate. -/
theorem run_choices_choosy :
    (∀ pick calls, run choosy pick calls ⟨"example.com", "tcp", 443, "in"⟩ =
      { run choosy firstPicker [] ⟨"example.com", "tcp", 443, "in"⟩ with calls := calls ++ [1] }) ∧
    (run choosy firstPicker [] ⟨"example.com", "tcp", 443, "in"⟩).edgeIds = ["1", "3"] ∧
    (run choosy firstPicker [] ⟨"example.com", "tcp", 443, "next"⟩).edgeIds = ["4", "5"] ∧
    (run choosy (fun _ _ => 7) [] ⟨"example.com", "tcp", 443, "next"⟩).edgeIds = ["4", "6"] := by
  refine ⟨?_, by decide +kernel, by decide +kernel, by decide +kernel⟩
  intro pick calls
  have hsame := (run_choices choosy firstPicker [] ⟨"example.com", "tcp", 443, "in"⟩).2.2.2
    (by decide +kernel) pick calls
  have hcalls : (met (run choosy firstPicker [] ⟨"example.com", "tcp", 443, "in"⟩)).filterMap
      (fun s => asked? choosy s.node) = [1] := by decide +kernel
  rw [hcalls] at hsame
  exact hsame

end ProxyPlan.Trace
