/-
ProxyPlan.Proofs.Forecast — what a check of the graph says about its walks.

A check looks at a graph without any request. Four of its codes say what happens to
requests all the same.

  · S008 stands at an inbound just when links lead from it to no terminal outbound. A
    walk only follows links (`Way.leads`), so no request from there ends at one.
  · S003 stands at an inbound without links. A request has to stay there.
  · R001 stands at a rule for an inbound that does not exist. The rule matches no
    request, whichever inbound it has come in through (`leadsToMatch_unknown`), and past
    the rules an inbound passes nothing to a rule.
  · Without S009 no links lead in a circle unless some of them are hops. A walk that
    comes back to a node has gone in a circle (`Way.repeats`), so it has taken a hop in
    between (`Way.stays_local`).

The first says exactly when it is reported, which is what reaching computes
(`Graph.mem_reachable`).
-/
import ProxyPlan.Proofs.Reach
import ProxyPlan.Proofs.RuleMeaning
import ProxyPlan.Proofs.Walk

namespace ProxyPlan

open Relation (TransGen ReflTransGen)

/-! ## Where the codes are reported -/

namespace Audit

variable {g : Graph} {id : String}

/-- S003 stands at the inbounds without links. -/
theorem reported_closed : Reported g "S003" id ↔
    ∃ n ∈ g.nodes, n.id = id ∧ n.kind = .inbound ∧ g.outgoing n.id = [] := by
  have hsole : ((checks g).filter fun c => c.1.contains "S003") =
      [(["S003"], inboundsWithoutExit g)] := by simp [checks]
  rw [reported_atNodes hsole fun _ => rfl]
  simp

/-- S008 stands at an inbound just when links lead from it to no terminal outbound. -/
theorem reported_lost {n : Node} (hn : n ∈ g.nodes) (hkind : n.kind = .inbound) :
    Reported g "S008" n.id ↔
      ¬ ∃ v, ReflTransGen g.LinksTo n.id v ∧ g.kind? v = some .terminal := by
  have hsole : ((checks g).filter fun c => c.1.contains "S008") =
      [(["S008"], inboundsWithoutDestination g)] := by simp [checks]
  have hreaches : reachesTerminal g n.id = true ↔
      ∃ v, ReflTransGen g.LinksTo n.id v ∧ g.kind? v = some .terminal := by
    simp only [reachesTerminal, List.any_eq_true, decide_eq_true_eq,
      Graph.mem_reachable (Graph.mem_ids.mpr ⟨n, hn, rfl⟩)]
  rw [reported_atNodes hsole fun _ => rfl, ← hreaches]
  constructor
  · rintro ⟨m, -, hid, htest⟩
    simp only [Bool.and_eq_true, Bool.not_eq_true', hid] at htest
    simp [htest.2]
  · intro hnone
    exact ⟨n, hn, rfl, by simp [hkind, hnone]⟩

theorem mem_unknownInbounds {nodes : List Node} {n : Node} {i : Issue} :
    i ∈ unknownInbounds nodes n ↔ ∃ c tag, n.role = .routing c ∧
      c.predicates.inboundTag? = some tag ∧
      (∀ m ∈ nodes, ∀ d, m.inbound? = some d → d.tag ≠ tag) ∧
      i = .atNode n.id (.unknownInbound c.tag tag) := by
  have hknown : ∀ tag,
      (!(nodes.filterMap fun m => (Node.inbound? m).map Inbound.tag).contains tag) = true ↔
        ∀ m ∈ nodes, ∀ d, m.inbound? = some d → d.tag ≠ tag := by
    intro tag
    simp
  constructor
  · intro hi
    unfold unknownInbounds at hi
    split at hi
    case h_1 c hrole =>
      split at hi
      case h_1 tag hasked =>
        obtain ⟨hwrong, rfl⟩ := mem_when.mp hi
        exact ⟨c, tag, hrole, hasked, (hknown tag).mp hwrong, rfl⟩
      case h_2 => cases hi
    case h_2 => cases hi
  · rintro ⟨c, tag, hrole, hasked, hnone, rfl⟩
    simp only [unknownInbounds, hrole, hasked]
    exact mem_when.mpr ⟨(hknown tag).mpr hnone, rfl⟩

/-- R001 stands at the rules for an inbound that does not exist. -/
theorem reported_unknown : Reported g "R001" id ↔ ∃ n ∈ g.nodes, n.id = id ∧
    ∃ c tag, n.role = .routing c ∧ c.predicates.inboundTag? = some tag ∧
      ∀ m ∈ g.nodes, ∀ d, m.inbound? = some d → d.tag ≠ tag := by
  have hsole : ((checks g).filter fun c => c.1.contains "R001") =
      [(["R001", "R002"], referenceIssues g.nodes)] := by simp [checks]
  rw [reported_iff hsole]
  constructor
  · rintro ⟨i, hi, hcode, hid⟩
    obtain ⟨n, hn, hi⟩ := List.mem_flatMap.mp hi
    rcases List.mem_append.mp hi with hi | hi
    · obtain ⟨c, tag, hrole, hasked, hnone, rfl⟩ := mem_unknownInbounds.mp hi
      exact ⟨n, hn, Option.some.inj hid, c, tag, hrole, hasked, hnone⟩
    · have hother := among_idleSelectors g.nodes n i hi
      simp [hcode] at hother
  · rintro ⟨n, hn, rfl, c, tag, hrole, hasked, hnone⟩
    refine ⟨.atNode n.id (.unknownInbound c.tag tag), ?_, rfl, rfl⟩
    exact List.mem_flatMap.mpr ⟨n, hn, List.mem_append_left _
      (mem_unknownInbounds.mpr ⟨c, tag, hrole, hasked, hnone, rfl⟩)⟩

end Audit

/-! ## One node -/

namespace Trace

variable {g : Graph} {pick : Picker} {r : Request} {visited : List String} {calls : List Nat}
  {n : Node} {t : Trace}

section

variable [Rule.Patterns]

/-- An inbound without links keeps every request. -/
theorem decision_closed {c : Inbound} (hrole : n.role = .inbound c)
    (hclosed : g.outgoing n.id = []) :
    decision g pick r calls n = .keep .closedInbound (.deadEnd n.displayName) := by
  simp [decision, hrole, exits, hclosed, atInbound]

/-- A rule for an inbound with another tag does not match. -/
theorem leadsToMatch_unknown {s : Rule.Subject} {x : Exit} {c : Routing} {tag : String}
    (hrole : x.2.role = .routing c) (hasked : c.predicates.inboundTag? = some tag)
    (hother : s.inboundTag ≠ tag) : leadsToMatch s x = false := by
  have hrouting : Node.routing? x.2 = some c := Node.routing?_eq_some.mpr hrole
  have habsent : Rule.absentOr c.predicates.inboundTag? (· == s.inboundTag) = false := by
    simpa [Rule.absentOr, hasked] using hother.symm
  simp [leadsToMatch, hrouting, Rule.predicatesMatch_eq, Rule.categoriesHold, habsent]

/-- An inbound passes a request to a rule that matches it, or past the rules. -/
theorem decision_inbound {c : Inbound} (hrole : n.role = .inbound c) {remark : Remark} {x : Exit}
    {calls' : List Nat} (h : decision g pick r calls n = .pass remark x calls') :
    leadsToMatch ⟨r.domain, r.protocol, r.port, c.tag⟩ x = true ∨ leadsPastRules x = true := by
  simp only [decision, hrole, atInbound] at h
  split at h
  · cases h
  split at h
  case h_1 y hy =>
    cases h
    exact .inl (List.find?_some hy)
  split at h
  case h_1 y hy =>
    cases h
    exact .inr (List.find?_some hy)
  case h_2 => cases h

/-- No inbound passes a request to a rule for an inbound that does not exist. -/
theorem not_passed_unknown (hn : n ∈ g.nodes) (hkind : n.kind = .inbound) {remark : Remark}
    {e : Edge} {m : Node} {calls' : List Nat}
    (h : decision g pick r calls n = .pass remark (e, m) calls') {c : Routing} {tag : String}
    (hrole : m.role = .routing c) (hasked : c.predicates.inboundTag? = some tag) :
    ¬ ∀ k ∈ g.nodes, ∀ d, k.inbound? = some d → d.tag ≠ tag := by
  intro hnone
  obtain ⟨d, hd⟩ : ∃ d, n.role = .inbound d := by
    obtain ⟨id, position, role, server⟩ := n
    cases role <;> cases hkind
    exact ⟨_, rfl⟩
  have hother : d.tag ≠ tag := hnone n hn d (Node.inbound?_eq_some.mpr hd)
  rcases decision_inbound hd h with hmatch | hpast
  · rw [leadsToMatch_unknown hrole hasked hother] at hmatch
    cases hmatch
  · have hrouting : m.kind = .routing := congrArg Role.kind hrole
    simp [leadsPastRules, hrouting] at hpast

/-! ## A whole way -/

/-- Each edge of a way is a link between the nodes before and after it. -/
theorem Way.link (h : Way g pick r visited calls n t) {k : Nat} {e : Edge}
    (he : t.edges[k]? = some e) :
    ∃ s s', t.steps[k]? = some s ∧ t.steps[k + 1]? = some s' ∧ e ∈ g.edges ∧
      g.isLink e = true ∧ e.source = s.node.id ∧ e.target = s'.node.id := by
  obtain ⟨s, s', _, _, hs, hs', hpass⟩ := h.passes he
  obtain ⟨hmem, hsource, hlink, htarget⟩ := mem_exits.mp (decision_pass hpass).exit
  exact ⟨s, s', hs, hs', hmem, hlink, hsource, (Graph.node?_id htarget).symm⟩

/-- Links lead from where a way begins to each of its steps. -/
theorem Way.leads (h : Way g pick r visited calls n t) {s : Step} (hs : s ∈ t.steps) :
    ReflTransGen g.LinksTo n.id s.node.id := by
  induction h with
  | again | kept =>
    obtain rfl := List.mem_singleton.mp hs
    exact .refl
  | passed _ hpass _ ih =>
    obtain ⟨hmem, hsource, hlink, htarget⟩ := mem_exits.mp (decision_pass hpass).exit
    rcases List.mem_cons.mp hs with rfl | hs
    · exact .refl
    · exact .head ⟨_, hmem, hlink, hsource, (Graph.node?_id htarget).symm⟩ (ih hs)

/-- From one step of a way to a later one links lead inside one server, unless a hop
is taken in between. -/
theorem Way.stays_local (h : Way g pick r visited calls n t) {i d : Nat} {s s' : Step}
    (hs : t.steps[i]? = some s) (hs' : t.steps[i + d + 1]? = some s')
    (hlocal : ∀ k e, i ≤ k → k ≤ i + d → t.edges[k]? = some e → g.isHop e = false) :
    TransGen g.JoinsLocally s.node.id s'.node.id := by
  have hedge : ∀ k, k ≤ i + d → ∃ e, t.edges[k]? = some e := by
    intro k hk
    have hlength := h.joins.length
    have hlater : i + d + 1 < t.steps.length := (List.getElem?_eq_some_iff.mp hs').1
    exact ⟨t.edges[k], List.getElem?_eq_getElem (by omega)⟩
  have hstep : ∀ k, i ≤ k → k ≤ i + d → ∀ u v, t.steps[k]? = some u → t.steps[k + 1]? = some v →
      g.JoinsLocally u.node.id v.node.id := by
    intro k hik hkd u v hu hv
    obtain ⟨e, he⟩ := hedge k hkd
    obtain ⟨u', v', hu', hv', hmem, hlink, hsource, htarget⟩ := h.link he
    obtain rfl := Option.some.inj (hu.symm.trans hu')
    obtain rfl := Option.some.inj (hv.symm.trans hv')
    exact ⟨e, hmem, hlink, hlocal k e hik hkd he, hsource, htarget⟩
  induction d generalizing s' with
  | zero => exact .single (hstep i (by omega) (by omega) s s' hs hs')
  | succ d ih =>
    obtain ⟨e, he⟩ := hedge (i + d + 1) (by omega)
    obtain ⟨u, -, hu, -⟩ := h.link he
    have hfirst : TransGen g.JoinsLocally s.node.id u.node.id := by
      refine ih hu (fun k e hik hkd => hlocal k e hik (by omega)) (fun k hk => hedge k (by omega))
        fun k hik hkd => hstep k hik (by omega)
    exact hfirst.tail (hstep (i + d + 1) (by omega) (by omega) u s' hu hs')

/-- A way that ends in a loop ends at a node it has been at before. -/
theorem Way.repeats (h : Way g pick r [] calls n t) (hn : n ∈ g.nodes) {name : String}
    (hloop : t.ending = .loop name) :
    ∃ i d s s', t.steps.length = i + d + 2 ∧ t.steps[i]? = some s ∧
      t.steps[i + d + 1]? = some s' ∧ s.node.id = s'.node.id := by
  rcases (h.sound hn).ids with ⟨-, hnot⟩ | ⟨-, id, hid, -, hids⟩
  · exact absurd hloop (hnot name)
  · obtain ⟨i, hi, hget⟩ := List.getElem_of_mem hid
    have hlength : t.steps.length = t.nodeIds.length + 1 := by
      simpa using congrArg List.length hids
    obtain ⟨d, hd⟩ : ∃ d, t.nodeIds.length = i + d + 1 := ⟨t.nodeIds.length - i - 1, by omega⟩
    have hfirst : (t.steps.map fun s => s.node.id)[i]? = some id := by
      rw [hids, List.getElem?_append_left hi, List.getElem?_eq_getElem hi, hget]
    have hsecond : (t.steps.map fun s => s.node.id)[i + d + 1]? = some id := by
      rw [hids, ← hd, List.getElem?_concat_length]
    rw [List.getElem?_map, Option.map_eq_some_iff] at hfirst hsecond
    obtain ⟨s, hs, hsid⟩ := hfirst
    obtain ⟨s', hs', hsid'⟩ := hsecond
    exact ⟨i, d, s, s', by omega, hs, hs', hsid.trans hsid'.symm⟩

/-! ## The forecast -/

section

variable (hids : (g.nodes.map Placed.id).Nodup)

include hids

/-- If links lead to no terminal outbound, no way does. -/
theorem Way.not_terminal (h : Way g pick r visited calls n t) (hn : n ∈ g.nodes)
    (hnone : ¬ ∃ v, ReflTransGen g.LinksTo n.id v ∧ g.kind? v = some .terminal) {s : Step}
    (hs : s ∈ t.steps) : s.node.kind ≠ .terminal := by
  intro hterminal
  have hnode : g.node? s.node.id = some s.node := Graph.node?_of_mem hids (h.node_mem hn s hs)
  exact hnone ⟨s.node.id, h.leads hs, Graph.kind?_eq_some.mpr ⟨s.node, hnode, hterminal⟩⟩

/-- A way ends at an inbound with S003. -/
theorem Way.eq_closed (h : Way g pick r [] calls n t) (hn : n ∈ g.nodes) {c : Inbound}
    (hrole : n.role = .inbound c) (hreported : Audit.Reported g "S003" n.id) :
    t = ⟨[⟨n, .closedInbound⟩], [], .deadEnd n.displayName, calls⟩ := by
  obtain ⟨m, hm, hid, -, hclosed⟩ := Audit.reported_closed.mp hreported
  obtain rfl := List.inj_on_of_nodup_map hids hm hn hid
  exact h.eq_kept (by simp) (decision_closed hrole hclosed)

/-- No inbound on a way passes the request to a rule with R001. -/
theorem Way.not_unknown (h : Way g pick r visited calls n t) (hn : n ∈ g.nodes) {id : String}
    (hreported : Audit.Reported g "R001" id) {k : Nat} {e : Edge} {s : Step}
    (he : t.edges[k]? = some e) (hs : t.steps[k]? = some s) (hkind : s.node.kind = .inbound) :
    e.target ≠ id := by
  rintro rfl
  obtain ⟨m, hm, hid, c, tag, hrole, hasked, hnone⟩ := Audit.reported_unknown.mp hreported
  obtain ⟨u, v, _, _, hu, hv, hpass⟩ := h.passes he
  obtain rfl := Option.some.inj (hs.symm.trans hu)
  obtain ⟨-, -, -, htarget⟩ := mem_exits.mp (decision_pass hpass).exit
  -- identities do not repeat, so the way goes on to the rule itself
  have hnext : v.node = m := List.inj_on_of_nodup_map hids
    (h.node_mem hn v (List.mem_of_getElem? hv)) hm ((Graph.node?_id htarget).trans hid.symm)
  exact not_passed_unknown (h.node_mem hn s (List.mem_of_getElem? hs)) hkind hpass
    (hnext ▸ hrole) hasked hnone

/-- Without S009 a way that comes back to a node has taken a hop in between. -/
theorem Way.hop_between (h : Way g pick r [] calls n t) (hn : n ∈ g.nodes)
    (hcode : (Audit.check g).hasCode "S009" = false) {name : String}
    (hloop : t.ending = .loop name) :
    ∃ i j s s', i < j ∧ t.steps.length = j + 1 ∧ t.steps[i]? = some s ∧ t.steps[j]? = some s' ∧
      s.node = s'.node ∧
      ∃ k e, i ≤ k ∧ k < j ∧ t.edges[k]? = some e ∧ g.isHop e = true := by
  obtain ⟨i, d, s, s', hlength, hs, hs', hid⟩ := h.repeats hn hloop
  have hnode : s.node = s'.node := List.inj_on_of_nodup_map hids
    (h.node_mem hn s (List.mem_of_getElem? hs)) (h.node_mem hn s' (List.mem_of_getElem? hs')) hid
  refine ⟨i, i + d + 1, s, s', by omega, by omega, hs, hs', hnode, ?_⟩
  by_contra hnohop
  have hlocal : ∀ k e, i ≤ k → k ≤ i + d → t.edges[k]? = some e → g.isHop e = false := by
    intro k e hik hkd he
    by_contra hhop
    exact hnohop ⟨k, e, hik, by omega, he, by simpa using hhop⟩
  have hcircle : g.OnCycle s.node.id := by
    have hjoins := h.stays_local hs hs' hlocal
    rwa [← hid] at hjoins
  have hreported := Audit.hasCode_loop.mpr ⟨_, hcircle⟩
  rw [hcode] at hreported
  cases hreported

end

/-- What a check reports comes true of every request, whatever choices are made. S008
stands at an inbound just when links lead from it to no terminal outbound, and then no
request from there gets to one; a request gets no further than an inbound with S003; no
inbound passes a request to a rule with R001; and without S009 a request that comes back
to a node has taken a hop in between. -/
theorem check_foretells (hids : (g.nodes.map Placed.id).Nodup)
    (htags : DistinctInbounds g.nodes) :
    (∀ n ∈ g.nodes, ∀ c, n.inbound? = some c →
      (Audit.Reported g "S008" n.id ↔
        ¬ ∃ v, ReflTransGen g.LinksTo n.id v ∧ g.kind? v = some .terminal) ∧
      ∀ pick calls (r : Request), r.inboundTag = c.tag →
        (Audit.Reported g "S008" n.id →
          ∀ s ∈ (run g pick calls r).steps, s.node.kind ≠ .terminal) ∧
        (Audit.Reported g "S003" n.id →
          run g pick calls r =
            ⟨[⟨n, .closedInbound⟩], [], .deadEnd n.displayName, calls⟩)) ∧
    (∀ id, Audit.Reported g "R001" id → ∀ pick calls r (k : Nat) (e : Edge) (s : Step),
      (run g pick calls r).edges[k]? = some e → (run g pick calls r).steps[k]? = some s →
      s.node.kind = .inbound → e.target ≠ id) ∧
    ((Audit.check g).hasCode "S009" = false → ∀ pick calls r name,
      (run g pick calls r).ending = .loop name →
      ∃ i j s s', i < j ∧ (run g pick calls r).steps.length = j + 1 ∧
        (run g pick calls r).steps[i]? = some s ∧ (run g pick calls r).steps[j]? = some s' ∧
        s.node = s'.node ∧
        ∃ k e, i ≤ k ∧ k < j ∧ (run g pick calls r).edges[k]? = some e ∧ g.isHop e = true) := by
  refine ⟨?inbounds, ?rules, ?loops⟩
  case inbounds =>
    intro n hn c hc
    have hlost := Audit.reported_lost hn (Node.kind_of_inbound? hc)
    refine ⟨hlost, ?_⟩
    intro pick calls r hr
    have hway : Way g pick r [] calls n (run g pick calls r) :=
      run_way (entrance?_eq_some htags hn hc hr)
    constructor
    · intro hreported s hs
      exact hway.not_terminal hids hn (hlost.mp hreported) hs
    · exact hway.eq_closed hids hn (Node.inbound?_eq_some.mp hc)
  case rules =>
    intro id hreported pick calls r k e s he hs hkind
    cases hentrance : entrance? g r with
    | none => simp [run, hentrance] at he
    | some n =>
      exact (run_way hentrance).not_unknown hids (List.mem_of_find?_eq_some hentrance) hreported he
        hs hkind
  case loops =>
    intro hcode pick calls r name hloop
    cases hentrance : entrance? g r with
    | none => simp [run, hentrance] at hloop
    | some n =>
      exact (run_way hentrance).hop_between hids (List.mem_of_find?_eq_some hentrance) hcode hloop

end

/-- The inbound of `ring` at which requests begin to go round. -/
def nearIn : Node :=
  ⟨"near-in", .origin, .inbound ⟨"near-in", .socks, "", 1080, none, [], none, none⟩, some "near"⟩

/-- The inbound of `ring` without links. -/
def idleIn : Node :=
  ⟨"idle", .origin, .inbound ⟨"idle", .http, "", 8080, none, [], none, none⟩, some "far"⟩

/-- Two servers that send requests to each other, with a rule for an inbound that does
not exist and an inbound without links. -/
def ring : Graph where
  nodes := [
    nearIn,
    ⟨"stale", .origin, .routing ⟨"stale", .ofInbound "gone"⟩, some "near"⟩,
    ⟨"direct", .origin, .terminal ⟨"direct", .freedom⟩, some "near"⟩,
    ⟨"near-out", .origin, .proxy ⟨"near-out", .socks, "192.0.2.2", 1080, none, none, none, none⟩,
      some "near"⟩,
    ⟨"far-in", .origin, .inbound ⟨"far-in", .socks, "", 1080, none, [], none, none⟩, some "far"⟩,
    ⟨"far-out", .origin, .proxy ⟨"far-out", .socks, "192.0.2.1", 1080, none, none, none, none⟩,
      some "far"⟩,
    idleIn]
  edges := [
    ⟨"a", "near-in", "stale", .conditional, some ⟨some 1, none, none⟩⟩,
    ⟨"b", "stale", "direct", .plain, none⟩,
    ⟨"c", "near-in", "near-out", .plain, none⟩,
    ⟨"d", "near-out", "far-in", .plain, none⟩,
    ⟨"e", "far-in", "far-out", .plain, none⟩,
    ⟨"f", "far-out", "near-in", .plain, none⟩]

attribute [local instance] Rule.Patterns.empty

theorem check_foretells_ring :
    (ring.nodes.map Placed.id).Nodup ∧ DistinctInbounds ring.nodes ∧
      (Audit.Reported ring "S008" "idle" ∧
        ¬ ∃ v, ReflTransGen ring.LinksTo "idle" v ∧ ring.kind? v = some .terminal) ∧
      (Audit.Reported ring "S003" "idle" ∧
        (run ring firstPicker [] ⟨"example.com", "tcp", 443, "idle"⟩).ending = .deadEnd "idle") ∧
      (Audit.Reported ring "R001" "stale" ∧
        ∀ e, (run ring firstPicker [] ⟨"example.com", "tcp", 443, "near-in"⟩).edges[0]? = some e →
          e.target ≠ "stale") ∧
      (Audit.check ring).hasCode "S009" = false ∧
        (run ring firstPicker [] ⟨"example.com", "tcp", 443, "near-in"⟩).ending =
          .loop "near-in" ∧
        ∃ (k : Nat) (e : Edge),
          (run ring firstPicker [] ⟨"example.com", "tcp", 443, "near-in"⟩).edges[k]? = some e ∧
          ring.isHop e = true := by
  have hids : (ring.nodes.map Placed.id).Nodup := by decide
  have htags : DistinctInbounds ring.nodes := by
    unfold DistinctInbounds
    decide
  have hlost : Audit.Reported ring "S008" "idle" := by decide +kernel
  have hclosed : Audit.Reported ring "S003" "idle" := by decide +kernel
  have hstale : Audit.Reported ring "R001" "stale" := by decide +kernel
  have hcode : (Audit.check ring).hasCode "S009" = false := by decide +kernel
  have hloop : (run ring firstPicker [] ⟨"example.com", "tcp", 443, "near-in"⟩).ending =
      .loop "near-in" := by decide +kernel
  obtain ⟨hinbounds, hrules, hloops⟩ := check_foretells hids htags
  obtain ⟨hnone, hruns⟩ := hinbounds idleIn (by decide) _ rfl
  refine ⟨hids, htags, ⟨hlost, hnone.mp hlost⟩, ⟨hclosed, ?_⟩, ⟨hstale, ?_⟩, hcode, hloop, ?_⟩
  · rw [(hruns firstPicker [] ⟨"example.com", "tcp", 443, "idle"⟩ rfl).2 hclosed]
    decide
  · intro e he
    exact hrules "stale" hstale firstPicker [] _ 0 e ⟨nearIn, .straightOn⟩ he
      (by decide +kernel) rfl
  · obtain ⟨_, _, _, _, -, -, -, -, -, k, e, -, -, he, hhop⟩ :=
      hloops hcode firstPicker [] _ _ hloop
    exact ⟨k, e, he, hhop⟩

end Trace
end ProxyPlan
