/-
ProxyPlan.Proofs.Walk — every walk ends, and its trace is sound.

`Trace.walk` counts down the identities it has room for. `Way` is the walk
without that count: at a node met before it ends, at a node that keeps the
request it ends, and otherwise it goes on. The count never decides anything
(`walk_way`): a walk that has used up its room stands on a node it has met, so
the walk with a count is the one without, and the one without always ends.

What a trace looks like is then an induction on its way, one case for each of
the three rules. What a single node does is said once, by `decision_pass` and
`decision_keep`. All that a walk sees of a graph are the ways out of nodes, so graphs
with the same ones have the same walks (`run_congr`).
-/
import Mathlib.Data.List.Perm.Subperm
import ProxyPlan.Proofs.Graph
import ProxyPlan.Trace.Walk

namespace ProxyPlan.Trace

variable {g : Graph} {pick : Picker} {r : Request}

/-! ## One node -/

theorem mem_exits {x : Exit} {id : String} :
    x ∈ exits g id ↔ x.1 ∈ g.edges ∧ x.1.source = id ∧ g.isLink x.1 = true ∧
      g.target? x.1 = some x.2 := by
  obtain ⟨e, n⟩ := x
  simp only [exits, List.mem_filterMap, Graph.mem_outgoing, Option.map_eq_some_iff,
    Prod.mk.injEq]
  constructor
  · rintro ⟨e', ⟨he, hs, hl⟩, n', ht, rfl, rfl⟩
    exact ⟨he, hs, hl, ht⟩
  · rintro ⟨he, hs, hl, ht⟩
    exact ⟨e, ⟨he, hs, hl⟩, n, ht, rfl, rfl⟩

/-- No edge of the node leads to an inbound. -/
def endsChain (g : Graph) (n : Node) : Prop :=
  ∀ e ∈ g.edges, e.source = n.id → g.kind? e.target ≠ some .inbound

/-- Traffic leaves the graph at the node. -/
def delivers (g : Graph) (n : Node) : Prop :=
  n.kind = .terminal ∨ n.kind = .proxy ∧ endsChain g n

theorem endsChain_iff {n : Node} (hn : n ∈ g.nodes) :
    endsChain g n ↔ ∀ x ∈ exits g n.id, x.2.kind ≠ .inbound := by
  constructor
  · intro h x hx
    obtain ⟨he, hs, -, ht⟩ := mem_exits.mp hx
    intro hk
    exact h x.1 he hs (Graph.kind?_eq_some.mpr ⟨x.2, ht, hk⟩)
  · intro h e he hs hk
    obtain ⟨t, ht, hk⟩ := Graph.kind?_eq_some.mp hk
    refine h (e, t) (mem_exits.mpr ⟨he, hs, ?_, ht⟩) hk
    have hsource : e.source ∈ g.ids := Graph.mem_ids.mpr ⟨n, hn, hs.symm⟩
    have htarget : e.target ∈ g.ids := Graph.isSome_node?.mp (by simp [ht])
    exact Graph.isLink_iff.mpr ⟨hsource, htarget⟩

/-- What it means that a node passes a request on. -/
structure Passes (g : Graph) (n : Node) (remark : Remark) (x : Exit) : Prop where
  exit : x ∈ exits g n.id
  remark_ne : remark ≠ .revisited
  not_terminal : n.kind ≠ .terminal
  proxy : n.kind = .proxy → x.2.kind = .inbound

/-- What it means that a node keeps a request. -/
structure Keeps (g : Graph) (n : Node) (remark : Remark) (ending : Ending) : Prop where
  remark_ne : remark ≠ .revisited
  not_loop : ∀ name, ending ≠ .loop name
  delivered : ending.outbound?.isSome = true ↔ delivers g n
  tag : ending.outbound?.isSome = true → ending.outbound? = n.tag?

theorem atBalancer_pass {calls calls' : List Nat} {n : Node} {c : Balancer} {links : List Exit}
    {remark : Remark} {x : Exit} (h : atBalancer pick calls n c links = .pass remark x calls') :
    x ∈ links ∧ remark ≠ .revisited := by
  cases links with
  | nil => cases h
  | cons y links =>
    simp only [atBalancer] at h
    split at h
    · cases h
      simp
    case h_2 z candidates hz =>
      cases h
      refine ⟨?_, by simp⟩
      have hsub : ∀ w ∈ z :: candidates, w ∈ y :: links := fun w hw =>
        (List.mem_filter.mp (hz ▸ hw)).1
      rw [List.getD_eq_getElem?_getD]
      cases hw : (z :: candidates)[(choose pick calls c.strategy (candidates.length + 1)).1]? with
      | none => exact hsub z (by simp)
      | some w => exact hsub w (List.mem_of_getElem? hw)

section

variable [Rule.Patterns]

theorem atInbound_pass {calls calls' : List Nat} {n : Node} {c : Inbound} {links : List Exit}
    {remark : Remark} {x : Exit} (h : atInbound r calls n c links = .pass remark x calls') :
    x ∈ links ∧ remark ≠ .revisited := by
  simp only [atInbound] at h
  split at h
  · cases h
  split at h
  case h_1 y hy =>
    cases h
    exact ⟨List.mem_of_find?_eq_some hy, by simp⟩
  split at h
  case h_1 y hy =>
    cases h
    exact ⟨List.mem_of_find?_eq_some hy, by simp⟩
  case h_2 => cases h

theorem atInbound_keep {calls : List Nat} {n : Node} {c : Inbound} {links : List Exit}
    {remark : Remark} {ending : Ending} (h : atInbound r calls n c links = .keep remark ending) :
    remark ≠ .revisited ∧ (∀ name, ending ≠ .loop name) ∧ ending.outbound? = none := by
  simp only [atInbound] at h
  split at h
  · cases h
    simp [Ending.outbound?]
  split at h
  · cases h
  split at h
  · cases h
  · cases h
    simp [Ending.outbound?]

/-- A node passes a request on along one of its links. -/
theorem decision_pass {calls calls' : List Nat} {n : Node} {remark : Remark} {x : Exit}
    (h : decision g pick r calls n = .pass remark x calls') : Passes g n remark x := by
  simp only [decision] at h
  split at h
  case h_1 c hrole =>
    have hk : n.kind = .inbound := congrArg Role.kind hrole
    obtain ⟨hx, hr⟩ := atInbound_pass h
    exact ⟨hx, hr, by simp [hk], by simp [hk]⟩
  case h_2 c hrole =>
    have hk : n.kind = .routing := congrArg Role.kind hrole
    cases hl : exits g n.id with
    | nil => simp [hl, atRouting] at h
    | cons y links =>
      simp only [hl, atRouting, Decision.pass.injEq] at h
      obtain ⟨rfl, rfl, -⟩ := h
      exact ⟨by simp [hl], by simp, by simp [hk], by simp [hk]⟩
  case h_3 c hrole =>
    have hk : n.kind = .balancer := congrArg Role.kind hrole
    obtain ⟨hx, hr⟩ := atBalancer_pass h
    exact ⟨hx, hr, by simp [hk], by simp [hk]⟩
  case h_4 c hrole =>
    have hk : n.kind = .proxy := congrArg Role.kind hrole
    simp only [atProxy] at h
    split at h
    case h_1 y hy =>
      cases h
      have hnext : x.2.kind = .inbound := by simpa using List.find?_some hy
      exact ⟨List.mem_of_find?_eq_some hy, by simp, by simp [hk], fun _ => hnext⟩
    case h_2 => cases h
  case h_5 => cases h
  case h_6 => cases h

/-- A node keeps a request only where it leaves the graph or gets stuck. -/
theorem decision_keep {calls : List Nat} {n : Node} {remark : Remark} {ending : Ending}
    (hn : n ∈ g.nodes) (h : decision g pick r calls n = .keep remark ending) :
    Keeps g n remark ending := by
  -- wherever it gets stuck, the kind of the node is none that delivers
  have stuck : n.kind ≠ .terminal → n.kind ≠ .proxy → remark ≠ .revisited →
      (∀ name, ending ≠ .loop name) → ending.outbound? = none → Keeps g n remark ending := by
    intro ht hp hr hl ho
    exact ⟨hr, hl, by simp [ho, delivers, ht, hp], by simp [ho]⟩
  simp only [decision] at h
  split at h
  case h_1 c hrole =>
    have hk : n.kind = .inbound := congrArg Role.kind hrole
    obtain ⟨hr, hl, ho⟩ := atInbound_keep h
    exact stuck (by simp [hk]) (by simp [hk]) hr hl ho
  case h_2 c hrole =>
    have hk : n.kind = .routing := congrArg Role.kind hrole
    cases hx : exits g n.id with
    | cons y links => simp [hx, atRouting] at h
    | nil =>
      simp only [hx, atRouting, Decision.keep.injEq] at h
      obtain ⟨rfl, rfl⟩ := h
      exact stuck (by simp [hk]) (by simp [hk]) (by simp) (by simp) rfl
  case h_3 c hrole =>
    have hk : n.kind = .balancer := congrArg Role.kind hrole
    cases hx : exits g n.id with
    | cons y links =>
      simp only [hx, atBalancer] at h
      split at h <;> cases h
    | nil =>
      simp only [hx, atBalancer, Decision.keep.injEq] at h
      obtain ⟨rfl, rfl⟩ := h
      exact stuck (by simp [hk]) (by simp [hk]) (by simp) (by simp) rfl
  case h_4 c hrole =>
    have hk : n.kind = .proxy := congrArg Role.kind hrole
    simp only [atProxy] at h
    split at h
    case h_1 => cases h
    case h_2 hnone =>
      cases h
      have hend : endsChain g n := (endsChain_iff hn).mpr (by simpa using hnone)
      exact ⟨by simp, by simp, by simp [Ending.outbound?, delivers, hk, hend],
        fun _ => by simp [Ending.outbound?, Node.tag?, hrole, Role.tag?]⟩
  case h_5 c hrole =>
    have hk : n.kind = .terminal := congrArg Role.kind hrole
    cases h
    exact ⟨by simp, by simp, by simp [Ending.outbound?, delivers, hk],
      fun _ => by simp [Ending.outbound?, Node.tag?, hrole, Role.tag?]⟩
  case h_6 c hrole =>
    have hk : n.kind = .device := congrArg Role.kind hrole
    cases h
    exact stuck (by simp [hk]) (by simp [hk]) (by simp) (by simp) rfl

/-! ## Graphs that a walk cannot tell apart -/

section

variable {g' : Graph} (hexits : ∀ id, exits g' id = exits g id)

include hexits

/-- A walk looks at a graph through the ways out of the nodes it stands on. -/
theorem walk_congr (room : Nat) (visited : List String) (calls : List Nat) (n : Node) :
    walk g' pick r room visited calls n = walk g pick r room visited calls n := by
  induction room generalizing visited calls n with
  | zero => rfl
  | succ room ih => simp only [walk, decision, hexits, ih]

theorem run_congr (hentrance : entrance? g' r = entrance? g r)
    (hids : g'.ids.length = g.ids.length) (calls : List Nat) :
    run g' pick calls r = run g pick calls r := by
  simp only [run, hentrance, hids, walk_congr hexits]

end

/-! ## The walk without a count -/

/-- A step put before a trace, and the edge that leads from one to the other. -/
def Onto (s : Step) (e : Edge) (t : Trace) : Trace :=
  { t with steps := s :: t.steps, edges := e :: t.edges }

/-- The way of a request from a node on, when some identities have been met and
some choices made before. -/
inductive Way (g : Graph) (pick : Picker) (r : Request) :
    (visited : List String) → (calls : List Nat) → Node → Trace → Prop where
  | again {visited calls n} (met : n.id ∈ visited) : Way g pick r visited calls n (revisit calls n)
  | kept {visited calls n remark ending} (new : n.id ∉ visited)
      (kept : decision g pick r calls n = .keep remark ending) :
      Way g pick r visited calls n ⟨[⟨n, remark⟩], [], ending, calls⟩
  | passed {visited calls n remark e next calls' onward} (new : n.id ∉ visited)
      (passed : decision g pick r calls n = .pass remark (e, next) calls')
      (rest : Way g pick r (n.id :: visited) calls' next onward) :
      Way g pick r visited calls n (Onto ⟨n, remark⟩ e onward)

omit [Rule.Patterns] in
/-- Without room every identity has been met: so many different ones have. -/
theorem mem_of_no_room {visited : List String} {id : String} (hid : id ∈ g.ids)
    (hnodup : visited.Nodup) (hsub : ∀ v ∈ visited, v ∈ g.ids)
    (hroom : g.ids.length ≤ visited.length) : id ∈ visited := by
  have hperm : visited.Perm g.ids :=
    (hnodup.subperm hsub).perm_of_length_le hroom
  exact hperm.mem_iff.mpr hid

/-- A walk with room for the identities it has not met follows the way. -/
theorem walk_way {room : Nat} {visited : List String} {calls : List Nat} {n : Node}
    (hn : n ∈ g.nodes) (hnodup : visited.Nodup) (hsub : ∀ v ∈ visited, v ∈ g.ids)
    (hroom : g.ids.length ≤ visited.length + room) :
    Way g pick r visited calls n (walk g pick r room visited calls n) := by
  induction room generalizing visited calls n with
  | zero => exact .again (mem_of_no_room (Graph.mem_ids.mpr ⟨n, hn, rfl⟩) hnodup hsub hroom)
  | succ room ih =>
    simp only [walk]
    split
    case isTrue hmet => exact .again (by simpa using hmet)
    case isFalse hnew =>
      replace hnew : n.id ∉ visited := by simpa using hnew
      split
      case h_1 remark ending hkeep => exact .kept hnew hkeep
      case h_2 remark e next calls' hpass =>
        obtain ⟨-, -, -, ht⟩ := mem_exits.mp (decision_pass hpass).exit
        refine .passed hnew hpass (ih (Graph.node?_mem ht) (List.nodup_cons.mpr ⟨hnew, hnodup⟩) ?_ ?_)
        · intro v hv
          obtain rfl | hv := List.mem_cons.mp hv
          · exact Graph.mem_ids.mpr ⟨n, hn, rfl⟩
          · exact hsub v hv
        · simp only [List.length_cons]
          omega

end

/-! ## What a way looks like -/

/-- The edges lead from each step to the next. -/
inductive Joins (g : Graph) : List Edge → List Step → Prop where
  | last (s : Step) : Joins g [] [s]
  | next {e : Edge} {s s' : Step} {edges : List Edge} {steps : List Step} (mem : e ∈ g.edges)
      (source : e.source = s.node.id) (target : e.target = s'.node.id)
      (rest : Joins g edges (s' :: steps)) : Joins g (e :: edges) (s :: s' :: steps)

theorem Joins.length {edges : List Edge} {steps : List Step} (h : Joins g edges steps) :
    edges.length + 1 = steps.length := by
  induction h with
  | last => rfl
  | next _ _ _ _ ih => simp [ih]

theorem Joins.get {edges : List Edge} {steps : List Step} (h : Joins g edges steps) {i : Nat}
    (hi : i + 1 < steps.length) :
    ∃ e ∈ g.edges, (edges.map Edge.id)[i]? = some e.id ∧ e.source = steps[i].node.id ∧
      e.target = steps[i + 1].node.id := by
  induction h generalizing i with
  | last => simp at hi
  | next mem source target _ ih =>
    cases i with
    | zero => exact ⟨_, mem, by simp, source, target⟩
    | succ i =>
      simp only [List.length_cons] at hi
      exact ih (by simpa using hi)

namespace Way

variable [Rule.Patterns] {visited : List String} {calls : List Nat} {n : Node} {t : Trace}

/-- A way begins where it is said to begin. -/
theorem head (h : Way g pick r visited calls n t) :
    ∃ s steps, t.steps = s :: steps ∧ s.node = n := by
  cases h with
  | again => exact ⟨_, _, rfl, rfl⟩
  | kept => exact ⟨_, _, rfl, rfl⟩
  | passed => exact ⟨_, _, rfl, rfl⟩

/-- Where a new node passes the request on, the way goes on. -/
theorem onward (h : Way g pick r visited calls n t) (hnew : n.id ∉ visited) {remark : Remark}
    {x : Exit} {calls' : List Nat} (hpass : decision g pick r calls n = .pass remark x calls') :
    ∃ t', t = Onto ⟨n, remark⟩ x.1 t' ∧ Way g pick r (n.id :: visited) calls' x.2 t' := by
  cases h with
  | again hmet => exact absurd hmet hnew
  | kept _ hkeep => simp [hpass] at hkeep
  | passed _ hpass' rest =>
    cases hpass.symm.trans hpass'
    exact ⟨_, rfl, rest⟩

/-- Where a new node keeps the request, the way ends. -/
theorem eq_kept (h : Way g pick r visited calls n t) (hnew : n.id ∉ visited) {remark : Remark}
    {ending : Ending} (hkeep : decision g pick r calls n = .keep remark ending) :
    t = ⟨[⟨n, remark⟩], [], ending, calls⟩ := by
  cases h with
  | again hmet => exact absurd hmet hnew
  | kept _ hkeep' =>
    cases hkeep.symm.trans hkeep'
    rfl
  | passed _ hpass => simp [hkeep] at hpass

theorem steps_kept (h : Way g pick r visited calls n t) (hnew : n.id ∉ visited) {remark : Remark}
    {ending : Ending} (hkeep : decision g pick r calls n = .keep remark ending) :
    t.steps = [⟨n, remark⟩] := by
  rw [h.eq_kept hnew hkeep]

/-- Along each edge of a way the node before it passes the request on to the node after
it. -/
theorem passes (h : Way g pick r visited calls n t) {k : Nat} {e : Edge}
    (he : t.edges[k]? = some e) :
    ∃ s s' calls₁ calls₂, t.steps[k]? = some s ∧ t.steps[k + 1]? = some s' ∧
      decision g pick r calls₁ s.node = .pass s.remark (e, s'.node) calls₂ := by
  induction h generalizing k with
  | again => simp [revisit] at he
  | kept => simp at he
  | passed _ hpass rest ih =>
    cases k with
    | zero =>
      obtain ⟨s', steps, hsteps, hnode⟩ := rest.head
      obtain rfl := Option.some.inj he
      exact ⟨_, s', _, _, rfl, by simp [Onto, hsteps], hnode ▸ hpass⟩
    | succ k =>
      obtain ⟨s, s', calls₁, calls₂, hs, hs', hdecision⟩ := ih he
      exact ⟨s, s', calls₁, calls₂, hs, hs', hdecision⟩

theorem joins (h : Way g pick r visited calls n t) : Joins g t.edges t.steps := by
  induction h with
  | again => exact .last _
  | kept => exact .last _
  | passed _ hpass rest ih =>
    obtain ⟨he, hs, -, ht⟩ := mem_exits.mp (decision_pass hpass).exit
    obtain ⟨s, steps, hsteps, hnode⟩ := rest.head
    simp only [Onto, hsteps] at ih ⊢
    exact .next he hs (by rw [hnode, Graph.node?_id ht]) ih

omit [Rule.Patterns] in
theorem nodeIds_onto {s : Step} {e : Edge} {t : Trace} (h : s.remark ≠ .revisited) :
    (Onto s e t).nodeIds = s.node.id :: t.nodeIds := by
  simp [Onto, nodeIds, h]

theorem node_mem (h : Way g pick r visited calls n t) (hn : n ∈ g.nodes) :
    ∀ s ∈ t.steps, s.node ∈ g.nodes := by
  induction h with
  | again => simpa [revisit] using hn
  | kept => simpa using hn
  | passed _ hpass _ ih =>
    obtain ⟨-, -, -, ht⟩ := mem_exits.mp (decision_pass hpass).exit
    intro s hs
    obtain rfl | hs := List.mem_cons.mp hs
    · exact hn
    · exact ih (Graph.node?_mem ht) s hs

/-- The identities on the way are new, each once. -/
theorem nodeIds_fresh (h : Way g pick r visited calls n t) (hn : n ∈ g.nodes) :
    t.nodeIds.Nodup ∧ ∀ id ∈ t.nodeIds, id ∉ visited := by
  induction h with
  | again => simp [revisit, nodeIds]
  | kept hnew hkeep =>
    simp [nodeIds, (decision_keep hn hkeep).remark_ne, hnew]
  | passed hnew hpass _ ih =>
    obtain ⟨-, -, -, ht⟩ := mem_exits.mp (decision_pass hpass).exit
    obtain ⟨hnodup, hfresh⟩ := ih (Graph.node?_mem ht)
    rw [nodeIds_onto (decision_pass hpass).remark_ne]
    refine ⟨List.nodup_cons.mpr ⟨fun hmem => hfresh _ hmem (by simp), hnodup⟩, ?_⟩
    intro id hid
    obtain rfl | hid := List.mem_cons.mp hid
    · exact hnew
    · exact fun hv => hfresh id hid (by simp [hv])

/-- The steps show each new identity once; only a loop shows one more step, at
an identity met before. -/
theorem steps_ids (h : Way g pick r visited calls n t) (hn : n ∈ g.nodes) :
    (t.steps.map (fun s => s.node.id) = t.nodeIds ∧ ∀ name, t.ending ≠ .loop name) ∨
      ∃ name id, t.ending = .loop name ∧ (id ∈ visited ∨ id ∈ t.nodeIds) ∧
        t.steps.map (fun s => s.node.id) = t.nodeIds ++ [id] := by
  induction h with
  | again hmet => exact .inr ⟨_, _, rfl, .inl hmet, by simp [revisit, nodeIds]⟩
  | kept hnew hkeep =>
    have hk := decision_keep hn hkeep
    exact .inl ⟨by simp [nodeIds, hk.remark_ne], hk.not_loop⟩
  | passed hnew hpass _ ih =>
    obtain ⟨-, -, -, ht⟩ := mem_exits.mp (decision_pass hpass).exit
    rw [nodeIds_onto (decision_pass hpass).remark_ne]
    rcases ih (Graph.node?_mem ht) with ⟨hids, hloop⟩ | ⟨name, id, hloop, hid, hids⟩
    · exact .inl ⟨by simp [Onto, hids], hloop⟩
    · refine .inr ⟨name, id, hloop, ?_, by simp [Onto, hids]⟩
      simp only [List.mem_cons] at hid ⊢
      tauto

/-- A way ends in a loop, or where its last step delivers or gets stuck. -/
theorem last (h : Way g pick r visited calls n t) (hn : n ∈ g.nodes) :
    ∃ s, t.steps.getLast? = some s ∧
      (t.ending.outbound?.isSome = true ↔
        (∀ name, t.ending ≠ .loop name) ∧ delivers g s.node) ∧
      (t.ending.outbound?.isSome = true → t.ending.outbound? = s.node.tag?) := by
  induction h with
  | again => exact ⟨_, rfl, by simp [revisit, Ending.outbound?], by simp [revisit, Ending.outbound?]⟩
  | kept hnew hkeep =>
    have hk := decision_keep hn hkeep
    exact ⟨_, rfl, by simp [hk.delivered, hk.not_loop], hk.tag⟩
  | passed hnew hpass rest ih =>
    obtain ⟨-, -, -, ht⟩ := mem_exits.mp (decision_pass hpass).exit
    obtain ⟨s, hs, hlast⟩ := ih (Graph.node?_mem ht)
    refine ⟨s, ?_, hlast⟩
    obtain ⟨s', steps, hsteps, -⟩ := rest.head
    rw [hsteps] at hs
    simpa [Onto, hsteps] using hs

end Way

/-! ## Traces -/

/-- The step shows an identity that an earlier step has shown. -/
def repeatsLast (t : Trace) : Prop :=
  ∃ s, t.steps.getLast? = some s ∧ s.node.id ∈ t.steps.dropLast.map fun s => s.node.id

/-- A trace that tells the truth about its walk. -/
structure Sound (g : Graph) (t : Trace) : Prop where
  nodes : ∀ s ∈ t.steps, s.node ∈ g.nodes
  distinct : t.nodeIds.Nodup
  /-- Only a loop shows more steps than identities: one, which repeats. -/
  ids : (t.steps.map (fun s => s.node.id) = t.nodeIds ∧ ∀ name, t.ending ≠ .loop name) ∨
    ∃ name, ∃ id ∈ t.nodeIds, t.ending = .loop name ∧
      t.steps.map (fun s => s.node.id) = t.nodeIds ++ [id]
  edgeCount : t.edgeIds.length + 1 = t.steps.length
  edges : ∀ i (hi : i + 1 < t.steps.length), ∃ e ∈ g.edges, t.edgeIds[i]? = some e.id ∧
    e.source = t.steps[i].node.id ∧ e.target = t.steps[i + 1].node.id
  final : t.success = true ↔ t.ending.outbound?.isSome = true
  success : t.success = true ↔
    ∃ s, t.steps.getLast? = some s ∧ ¬ repeatsLast t ∧ delivers g s.node
  outbound : t.success = true →
    ∃ s, t.steps.getLast? = some s ∧ t.ending.outbound? = s.node.tag?

/-- The last step repeats an identity just when the trace ends in a loop. -/
theorem repeatsLast_iff {t : Trace} (hdistinct : t.nodeIds.Nodup)
    (hids : (t.steps.map (fun s => s.node.id) = t.nodeIds ∧ ∀ name, t.ending ≠ .loop name) ∨
      ∃ name, ∃ id ∈ t.nodeIds, t.ending = .loop name ∧
        t.steps.map (fun s => s.node.id) = t.nodeIds ++ [id]) :
    repeatsLast t ↔ ∃ name, t.ending = .loop name := by
  have hsplit : ∀ s, t.steps.getLast? = some s →
      t.steps.map (fun s => s.node.id) =
        t.steps.dropLast.map (fun s => s.node.id) ++ [s.node.id] := by
    intro s hs
    obtain ⟨steps, hsteps⟩ := List.getLast?_eq_some_iff.mp hs
    simp [hsteps]
  constructor
  · rintro ⟨s, hs, hmem⟩
    rcases hids with ⟨hids, -⟩ | ⟨name, -, -, hloop, -⟩
    · rw [← hids, hsplit s hs] at hdistinct
      exact absurd rfl ((List.nodup_append.mp hdistinct).2.2 _ hmem _ (by simp))
    · exact ⟨name, hloop⟩
  · rintro ⟨name, hloop⟩
    rcases hids with ⟨-, hnot⟩ | ⟨-, id, hid, -, hids⟩
    · exact absurd hloop (hnot name)
    · cases hs : t.steps.getLast? with
      | none => simp [List.getLast?_eq_none_iff.mp hs] at hids
      | some s =>
        rw [hsplit s hs] at hids
        obtain ⟨hdrop, hlast⟩ := List.append_inj' hids rfl
        simp only [List.cons.injEq, and_true] at hlast
        exact ⟨s, hs, by rw [hdrop, hlast]; exact hid⟩

theorem Way.sound [Rule.Patterns] {calls : List Nat} {n : Node} {t : Trace} (hn : n ∈ g.nodes)
    (h : Way g pick r [] calls n t) : Sound g t := by
  have hids := h.steps_ids hn
  simp only [List.not_mem_nil, false_or] at hids
  replace hids : (t.steps.map (fun s => s.node.id) = t.nodeIds ∧ ∀ name, t.ending ≠ .loop name) ∨
      ∃ name, ∃ id ∈ t.nodeIds, t.ending = .loop name ∧
        t.steps.map (fun s => s.node.id) = t.nodeIds ++ [id] := by
    rcases hids with hids | ⟨name, id, hloop, hid, hids⟩
    · exact .inl hids
    · exact .inr ⟨name, id, hid, hloop, hids⟩
  have hdistinct := (h.nodeIds_fresh hn).1
  have hrepeat : ¬ repeatsLast t ↔ ∀ name, t.ending ≠ .loop name := by
    rw [repeatsLast_iff hdistinct hids, not_exists]
  obtain ⟨s, hs, hdelivers, htag⟩ := h.last hn
  refine ⟨h.node_mem hn, hdistinct, hids, by simpa [edgeIds] using h.joins.length,
    fun i hi => h.joins.get hi, .rfl, ?_, fun hsome => ⟨s, hs, htag hsome⟩⟩
  rw [hrepeat, success, hdelivers]
  constructor
  · exact fun hd => ⟨s, hs, hd⟩
  · rintro ⟨s', hs', hd⟩
    cases hs.symm.trans hs'
    exact hd

/-- A walk from the entrance follows a way, and so it ends. -/
theorem run_way [Rule.Patterns] {calls : List Nat} {n : Node} (h : entrance? g r = some n) :
    Way g pick r [] calls n (run g pick calls r) := by
  simp only [run, h]
  exact walk_way (List.mem_of_find?_eq_some h) .nil (by simp) (by simp)

theorem entrance?_eq_none : entrance? g r = none ↔
    ∀ n ∈ g.nodes, ∀ c, n.inbound? = some c → c.tag ≠ r.inboundTag := by
  simp only [entrance?, List.find?_eq_none, Option.any_eq_true, beq_iff_eq, not_exists, not_and]

/-- A request enters at the only inbound with its tag. -/
theorem entrance?_eq_some (htags : DistinctInbounds g.nodes) {i : Node} {c : Inbound}
    (hi : i ∈ g.nodes) (hc : i.inbound? = some c) (hr : r.inboundTag = c.tag) :
    entrance? g r = some i := by
  cases hm : entrance? g r with
  | none => exact absurd hr.symm (entrance?_eq_none.mp hm i hi c hc)
  | some m =>
    have hmatch := List.find?_some hm
    simp only [Option.any_eq_true, beq_iff_eq, hr] at hmatch
    obtain ⟨d, hd, htag⟩ := hmatch
    rw [htags.eq (List.mem_of_find?_eq_some hm) hi hd hc htag]

/-- Every request has a trace, and a sound one. Whatever the graph, the walk
ends after at most one step more than there are identities; it has no step just
when no inbound has the tag that is asked for. -/
theorem run_sound [Rule.Patterns] (g : Graph) (pick : Picker) (calls : List Nat) (r : Request) :
    (run g pick calls r).steps.length ≤ g.ids.length + 1 ∧
    ((run g pick calls r).steps = [] ↔
      ∀ n ∈ g.nodes, ∀ c, n.inbound? = some c → c.tag ≠ r.inboundTag) ∧
    ((run g pick calls r).steps ≠ [] →
      (∃ n, entrance? g r = some n ∧ Way g pick r [] calls n (run g pick calls r)) ∧
        Sound g (run g pick calls r)) := by
  rw [← entrance?_eq_none]
  cases h : entrance? g r with
  | none => simp [run, h]
  | some n =>
    have hway : Way g pick r [] calls n (run g pick calls r) := run_way h
    have hsound := hway.sound (List.mem_of_find?_eq_some h)
    obtain ⟨s, steps, hsteps, -⟩ := hway.head
    refine ⟨?_, by simp [hsteps], fun _ => ⟨⟨n, rfl, hway⟩, hsound⟩⟩
    have hcount : (run g pick calls r).nodeIds.length ≤ g.ids.length := by
      refine (hsound.distinct.subperm fun id hid => ?_).length_le
      obtain ⟨s, hs, rfl⟩ := List.mem_map.mp hid
      exact Graph.mem_ids.mpr ⟨s.node, hsound.nodes s (List.mem_of_mem_filter hs), rfl⟩
    have hlength : (run g pick calls r).steps.length ≤
        (run g pick calls r).nodeIds.length + 1 := by
      rcases hsound.ids with ⟨hids, -⟩ | ⟨-, id, -, -, hids⟩
      · have := congrArg List.length hids
        simp only [List.length_map] at this
        omega
      · have := congrArg List.length hids
        simp only [List.length_map, List.length_append, List.length_singleton] at this
        omega
    omega

end ProxyPlan.Trace
