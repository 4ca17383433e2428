/-
ProxyPlan.Proofs.Loops — the search for a loop finds one just when there is one.

The search goes as deep as it can and keeps two lists: the path, whose nodes it
has entered and not left, and the nodes it is done with. Each list carries one
half of the proof.

  · Every node of the path leads to the node the search stands on. So an edge
    back into the path closes a way round, and what is reported is a loop
    (`explore_back`).
  · A node joins the others that are done with only once all its neighbours
    are among them (`Finished`). Read backwards that is an order of the nodes
    against which no edge runs, so no loop passes through them (`explore_clear`,
    `Finished.not_onLoop`).

The bound on the depth never cuts a search short: the path does not repeat, so
it cannot be longer than the list of all nodes.
-/
import Mathlib.Data.List.Perm.Subperm
import Mathlib.Logic.Relation
import ProxyPlan.Proofs.Audit

namespace ProxyPlan.Graph

open Relation (TransGen ReflTransGen)

/-! ## Neighbours and loops -/

section

variable {next : String → List String}

/-- One node is a neighbour of another. -/
def Follows (next : String → List String) (u v : String) : Prop := v ∈ next u

/-- Going from neighbour to neighbour one comes back to the node. -/
def OnLoop (next : String → List String) (v : String) : Prop := TransGen (Follows next) v v

/-- All neighbours of each node stand after it. -/
inductive Finished (next : String → List String) : List String → Prop where
  | nil : Finished next []
  | cons {u : String} {done : List String} (neighbours : ∀ v ∈ next u, v ∈ done)
      (rest : Finished next done) : Finished next (u :: done)

theorem Finished.closed {done : List String} (h : Finished next done) {u v : String}
    (hu : u ∈ done) (huv : ReflTransGen (Follows next) u v) : v ∈ done := by
  have hstep : ∀ a ∈ done, ∀ b ∈ next a, b ∈ done := by
    clear huv hu
    induction h with
    | nil => simp
    | cons neighbours _ ih =>
      intro a ha b hb
      obtain rfl | ha := List.mem_cons.mp ha
      · exact List.mem_cons_of_mem _ (neighbours b hb)
      · exact List.mem_cons_of_mem _ (ih a ha b hb)
  induction huv with
  | refl => exact hu
  | tail _ hab ih => exact hstep _ ih _ hab

/-- No loop passes through nodes that are done with. -/
theorem Finished.not_onLoop {done : List String} (h : Finished next done) {v : String}
    (hv : v ∈ done) : ¬ OnLoop next v := by
  induction h with
  | nil => simp at hv
  | @cons u rest neighbours hrest ih =>
    by_cases hvr : v ∈ rest
    · exact ih hvr
    · -- a loop through the first node would pass through the rest and come back to it
      intro hloop
      obtain rfl : v = u := (List.mem_cons.mp hv).resolve_right hvr
      obtain ⟨w, hvw, hwv⟩ := TransGen.head'_iff.mp hloop
      exact hvr (hrest.closed (neighbours w hvw) hwv)

/-! ## The search -/

theorem visitAll_back {visit : List String → String → Search} {done vs : List String}
    {s t : String} (h : visitAll visit done vs = .back s t) :
    ∃ d, ∃ v ∈ vs, visit d v = .back s t := by
  induction vs generalizing done with
  | nil => cases h
  | cons v rest ih =>
    simp only [visitAll] at h
    split at h
    case h_1 d hd =>
      obtain ⟨d', w, hw, hback⟩ := ih h
      exact ⟨d', w, List.mem_cons_of_mem _ hw, hback⟩
    case h_2 s' t' hback =>
      cases h
      exact ⟨done, v, by simp, hback⟩

theorem visitAll_clear {visit : List String → String → Search} {done done' vs : List String}
    (h : visitAll visit done vs = .clear done') (hdone : Finished next done)
    (hvisit : ∀ v ∈ vs, ∀ d d', Finished next d → visit d v = .clear d' →
      Finished next d' ∧ d ⊆ d' ∧ v ∈ d') :
    Finished next done' ∧ done ⊆ done' ∧ ∀ v ∈ vs, v ∈ done' := by
  induction vs generalizing done with
  | nil =>
    cases h
    exact ⟨hdone, List.Subset.refl _, by simp⟩
  | cons v rest ih =>
    simp only [visitAll] at h
    split at h
    case h_1 d hd =>
      obtain ⟨hfinished, hsub, hv⟩ := hvisit v (by simp) done d hdone hd
      obtain ⟨hfinished', hsub', hrest⟩ := ih h hfinished fun w hw =>
        hvisit w (List.mem_cons_of_mem _ hw)
      refine ⟨hfinished', List.Subset.trans hsub hsub', ?_⟩
      intro w hw
      obtain rfl | hw := List.mem_cons.mp hw
      · exact hsub' hv
      · exact hrest w hw
    case h_2 => cases h

/-- What is reported is an edge back to a node on a loop. -/
theorem explore_back {depth : Nat} {path done : List String} {u s t : String}
    (h : explore next depth path done u = .back s t)
    (hpath : ∀ p ∈ path, ReflTransGen (Follows next) p u) : OnLoop next t := by
  induction depth generalizing path done u with
  | zero => cases h
  | succ depth ih =>
    simp only [explore] at h
    split at h
    case h_1 => cases h
    case h_2 s' t' hall =>
      cases h
      obtain ⟨d, v, hv, hvisit⟩ := visitAll_back hall
      have hreach : ∀ p ∈ u :: path, ReflTransGen (Follows next) p u := by
        intro p hp
        obtain rfl | hp := List.mem_cons.mp hp
        · exact .refl
        · exact hpath p hp
      split at hvisit
      case isTrue hmet =>
        -- the edge leads back into the path
        cases hvisit
        exact TransGen.tail' (hreach t (by simpa using hmet)) hv
      case isFalse =>
        split at hvisit
        case isTrue => cases hvisit
        case isFalse => exact ih hvisit fun p hp => (hreach p hp).tail hv

/-- If nothing is reported, the node is done with, and all it leads to. -/
theorem explore_clear {nodes : List String} (hclosed : ∀ u ∈ nodes, ∀ v ∈ next u, v ∈ nodes)
    {depth : Nat} {path done done' : List String} {u : String}
    (h : explore next depth path done u = .clear done') (hdone : Finished next done)
    (hnodup : (u :: path).Nodup) (hsub : ∀ v ∈ u :: path, v ∈ nodes)
    (hroom : nodes.length ≤ path.length + depth) :
    Finished next done' ∧ done ⊆ done' ∧ u ∈ done' := by
  induction depth generalizing path done done' u with
  | zero =>
    have hlength := (hnodup.subperm hsub).length_le
    simp only [List.length_cons] at hlength
    omega
  | succ depth ih =>
    simp only [explore] at h
    split at h
    case h_2 => cases h
    case h_1 d hall =>
      cases h
      -- one neighbour: it is done with already, or the search goes into it
      have hvisit : ∀ v ∈ next u, ∀ e e', Finished next e →
          (if (u :: path).contains v then Search.back u v
            else if e.contains v then Search.clear e
            else explore next depth (u :: path) e v) = .clear e' →
          Finished next e' ∧ e ⊆ e' ∧ v ∈ e' := by
        intro v hv e e' he hvisit
        split at hvisit
        case isTrue => cases hvisit
        case isFalse hnew =>
          split at hvisit
          case isTrue hmem =>
            cases hvisit
            exact ⟨he, List.Subset.refl _, by simpa using hmem⟩
          case isFalse =>
            refine ih hvisit he ?_ ?_ ?_
            · exact List.nodup_cons.mpr ⟨by simpa using hnew, hnodup⟩
            · intro w hw
              obtain rfl | hw := List.mem_cons.mp hw
              · exact hclosed u (hsub u (by simp)) w hv
              · exact hsub w hw
            · simp only [List.length_cons]
              omega
      obtain ⟨hfinished, hkept, hnext⟩ := visitAll_clear hall hdone hvisit
      exact ⟨.cons hnext hfinished, List.Subset.trans hkept (List.subset_cons_self u d), by simp⟩

/-- An edge back that is found from all nodes in turn leads to a node on a loop. -/
theorem firstBack?_onLoop {nodes : List String} {s t : String}
    (h : firstBack? next nodes = some (s, t)) : OnLoop next t := by
  simp only [firstBack?] at h
  split at h
  case h_1 => cases h
  case h_2 s' t' hall =>
    cases h
    obtain ⟨d, v, -, hvisit⟩ := visitAll_back hall
    split at hvisit
    case isTrue => cases hvisit
    case isFalse => exact explore_back hvisit (by simp)

/-- If none is found from all nodes in turn, no loop passes through any of them. -/
theorem not_onLoop_of_firstBack? {nodes : List String}
    (hclosed : ∀ u ∈ nodes, ∀ v ∈ next u, v ∈ nodes) (h : firstBack? next nodes = none)
    {v : String} (hv : v ∈ nodes) : ¬ OnLoop next v := by
  simp only [firstBack?] at h
  split at h
  case h_2 => cases h
  case h_1 d hall =>
    have hvisit : ∀ u ∈ nodes, ∀ e e', Finished next e →
        (if e.contains u then Search.clear e else explore next nodes.length [] e u) = .clear e' →
        Finished next e' ∧ e ⊆ e' ∧ u ∈ e' := by
      intro u hu e e' he hvisit
      split at hvisit
      case isTrue hmem =>
        cases hvisit
        exact ⟨he, List.Subset.refl _, by simpa using hmem⟩
      case isFalse => exact explore_clear hclosed hvisit he (by simp) (by simpa using hu) (by simp)
    obtain ⟨hfinished, -, hdone⟩ := visitAll_clear hall .nil hvisit
    exact hfinished.not_onLoop (hdone v hv)

end

/-! ## Loops inside one server -/

variable {g : Graph}

/-- An edge leads from one node to another, and not from one server to the next. -/
def JoinsLocally (g : Graph) (u v : String) : Prop :=
  ∃ e ∈ g.edges, g.isLink e = true ∧ g.isHop e = false ∧ e.source = u ∧ e.target = v

/-- Along such edges one comes back to the node. -/
def OnCycle (g : Graph) (v : String) : Prop := TransGen g.JoinsLocally v v

theorem follows_neighbours_iff {follow : Edge → Bool} {u v : String} :
    Follows (g.neighbours follow) u v ↔
      ∃ e ∈ g.edges, g.isLink e = true ∧ follow e = true ∧ e.source = u ∧ e.target = v := by
  simp only [Follows, neighbours, linksThat, List.mem_reverse, List.mem_map, List.mem_filter,
    Bool.and_eq_true, beq_iff_eq]
  constructor
  · rintro ⟨e, ⟨he, ⟨hs, hfollow⟩, hlink⟩, ht⟩
    exact ⟨e, he, hlink, hfollow, hs, ht⟩
  · rintro ⟨e, he, hlink, hfollow, hs, ht⟩
    exact ⟨e, ⟨he, ⟨hs, hfollow⟩, hlink⟩, ht⟩

theorem follows_neighbours :
    Follows (g.neighbours fun e => !g.isHop e) = g.JoinsLocally := by
  funext u v
  simp only [follows_neighbours_iff, Bool.not_eq_true', JoinsLocally]

theorem JoinsLocally.mem_ids {u v : String} (h : g.JoinsLocally u v) : u ∈ g.ids ∧ v ∈ g.ids := by
  obtain ⟨e, -, hlink, -, rfl, rfl⟩ := h
  exact isLink_iff.mp hlink

/-- A loop that is found passes through the node it is shown at. -/
theorem loop?_onCycle {s t : String} (h : g.loop? = some (s, t)) : g.OnCycle t := by
  rw [OnCycle, ← follows_neighbours]
  exact firstBack?_onLoop h

/-- A loop is found just when there is one. -/
theorem loop?_isSome : g.loop?.isSome = true ↔ ∃ v, g.OnCycle v := by
  constructor
  · intro h
    obtain ⟨⟨s, t⟩, hloop⟩ := Option.isSome_iff_exists.mp h
    exact ⟨t, loop?_onCycle hloop⟩
  · rintro ⟨v, hv⟩
    by_contra hnone
    replace hnone : g.loop? = none := by simpa using hnone
    obtain ⟨w, hvw, -⟩ := TransGen.head'_iff.mp hv
    refine not_onLoop_of_firstBack? ?_ hnone hvw.mem_ids.1 (by rwa [OnLoop, follows_neighbours])
    intro a _ b hb
    have hab : Follows (g.neighbours fun e => !g.isHop e) a b := hb
    rw [follows_neighbours] at hab
    exact hab.mem_ids.2

end ProxyPlan.Graph

namespace ProxyPlan.Audit

open ProxyPlan.Graph

variable {g : Graph}

/-- What is reported as a loop is shown at a node that a loop passes through. -/
theorem of_mem_loops {i : Issue} (hi : i ∈ loops g) : ∃ id, i.node = some id ∧ g.OnCycle id := by
  unfold loops at hi
  split at hi
  case h_1 s t hback =>
    obtain rfl := List.mem_singleton.mp hi
    exact ⟨t, rfl, loop?_onCycle hback⟩
  case h_2 => cases hi

theorem loops_eq_nil : loops g = [] ↔ ¬ ∃ id, g.OnCycle id := by
  rw [← loop?_isSome, loops]
  split <;> simp_all

/-- The code of loops stands in a report just when there is one. -/
theorem hasCode_loop : (check g).hasCode "S009" = true ↔ ∃ id, g.OnCycle id := by
  have hloops : (check g).hasCode "S009" = true ↔ loops g ≠ [] := by
    rw [← filter_check_loop, Ne, List.filter_eq_nil_iff]
    simp [Report.hasCode]
  rw [hloops, Ne, loops_eq_nil, not_not]

/-- A check reports a loop just when there is one, reports one at most, and shows it at a
node the loop passes through. -/
theorem check_loops (g : Graph) :
    ((check g).hasCode "S009" = true ↔ ∃ id, g.OnCycle id) ∧
      ((check g).all.filter fun i => i.code = "S009").length ≤ 1 ∧
      ∀ i ∈ (check g).all, i.code = "S009" → ∃ id, i.node = some id ∧ g.OnCycle id := by
  refine ⟨hasCode_loop, ?once, ?shown⟩
  case once =>
    rw [filter_check_loop, loops]
    split <;> simp
  case shown =>
    intro i hi hcode
    have hloop : i ∈ loops g := by
      rw [← filter_check_loop]
      exact List.mem_filter.mpr ⟨hi, decide_eq_true hcode⟩
    exact of_mem_loops hloop

end ProxyPlan.Audit
