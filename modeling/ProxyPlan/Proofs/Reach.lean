/-
ProxyPlan.Proofs.Reach — what is reached is what links lead to.

Reaching adds whole rounds: all neighbours of the last round that are new. Between two
rounds the nodes reached so far are such that each of them is led to, and leads nowhere
else unless it came with the last round (`Reaching`). So two things can end it. If a
round brought nothing, the nodes reached are closed under following links. If the
rounds have run out, as many nodes are reached as there are, so all are, and nothing
is left that links could lead to. Either way the nodes reached are those that links lead
to, no more and no fewer (`Reaching.mem_reach`).
-/
import Mathlib.Data.List.Perm.Subperm
import ProxyPlan.Proofs.Loops

namespace ProxyPlan.Graph

open Relation (ReflTransGen)

section

variable {next : String → List String} {start : String} {nodes reached last : List String}

/-! ## One round -/

theorem mem_newNeighbours {v : String} :
    v ∈ newNeighbours next reached last ↔ (∃ u ∈ last, v ∈ next u) ∧ v ∉ reached := by
  simp [newNeighbours]

theorem newNeighbours_nodup : (newNeighbours next reached last).Nodup :=
  (Order.distinct_nodup _).filter _

/-- Some nodes are reached from a node, and only those of the last round can lead to
others. -/
structure Reaching (next : String → List String) (start : String)
    (nodes reached last : List String) : Prop where
  begins : start ∈ reached
  led : ∀ v ∈ reached, ReflTransGen (Follows next) start v
  nodup : reached.Nodup
  within : ∀ v ∈ reached, v ∈ nodes
  kept : ∀ v ∈ last, v ∈ reached
  closed : ∀ u ∈ reached, u ∉ last → ∀ v ∈ next u, v ∈ reached

/-- At first only the node itself is reached. -/
theorem reaching_start (hstart : start ∈ nodes) : Reaching next start nodes [start] [start] where
  begins := by simp
  led := by
    intro v hv
    rw [List.mem_singleton.mp hv]
  nodup := List.nodup_singleton start
  within := by
    intro v hv
    rwa [List.mem_singleton.mp hv]
  kept := by simp
  closed := by simp

namespace Reaching

/-- A round leads to what it is said to reach. -/
theorem round (h : Reaching next start nodes reached last)
    (hnodes : ∀ u ∈ nodes, ∀ v ∈ next u, v ∈ nodes) :
    Reaching next start nodes (reached ++ newNeighbours next reached last)
      (newNeighbours next reached last) where
  begins := List.mem_append_left _ h.begins
  led := by
    intro v hv
    rcases List.mem_append.mp hv with hold | hnew
    · exact h.led v hold
    · obtain ⟨⟨u, hu, huv⟩, -⟩ := mem_newNeighbours.mp hnew
      exact (h.led u (h.kept u hu)).tail huv
  nodup := by
    refine List.nodup_append.mpr ⟨h.nodup, newNeighbours_nodup, ?_⟩
    intro v hold w hnew hvw
    exact (mem_newNeighbours.mp hnew).2 (hvw ▸ hold)
  within := by
    intro v hv
    rcases List.mem_append.mp hv with hold | hnew
    · exact h.within v hold
    · obtain ⟨⟨u, hu, huv⟩, -⟩ := mem_newNeighbours.mp hnew
      exact hnodes u (h.within u (h.kept u hu)) v huv
  kept := by
    intro v hv
    exact List.mem_append_right _ hv
  closed := by
    intro u hu hlast v huv
    have hold : u ∈ reached := (List.mem_append.mp hu).resolve_right hlast
    by_cases hv : v ∈ reached
    · exact List.mem_append_left _ hv
    -- a neighbour that is not reached yet is new, as `u` came with the last round
    · have hnow : u ∈ last := by
        by_contra hbefore
        exact hv (h.closed u hold hbefore v huv)
      exact List.mem_append_right _ (mem_newNeighbours.mpr ⟨⟨u, hnow, huv⟩, hv⟩)

/-- If no neighbour is missing, what is reached is what is led to. -/
theorem mem_iff (h : Reaching next start nodes reached last)
    (hclosed : ∀ u ∈ reached, ∀ v ∈ next u, v ∈ reached) {v : String} :
    v ∈ reached ↔ ReflTransGen (Follows next) start v := by
  constructor
  · exact h.led v
  · intro hled
    induction hled with
    | refl => exact h.begins
    | tail _ huv ih => exact hclosed _ ih _ huv

/-- With rounds for the nodes that are not reached, reaching reaches all that is led
to. -/
theorem mem_reach {rounds : Nat} (h : Reaching next start nodes reached last)
    (hnodes : ∀ u ∈ nodes, ∀ v ∈ next u, v ∈ nodes)
    (hroom : last ≠ [] → nodes.length ≤ reached.length + rounds) {v : String} :
    v ∈ reach next rounds reached last ↔ ReflTransGen (Follows next) start v := by
  induction rounds generalizing reached last with
  | zero =>
    refine h.mem_iff ?_
    intro u hu w huw
    by_cases hlast : last = []
    · exact h.closed u hu (by simp [hlast]) w huw
    · -- as many nodes are reached as there are
      have hall : reached.Perm nodes :=
        (h.nodup.subperm h.within).perm_of_length_le (hroom hlast)
      exact hall.mem_iff.mpr (hnodes u (h.within u hu) w huw)
  | succ rounds ih =>
    refine ih (h.round hnodes) ?_
    intro hnew
    have hgrows : 0 < (newNeighbours next reached last).length := List.length_pos_iff.mpr hnew
    have hlast : last ≠ [] := by
      rintro rfl
      simp [newNeighbours, Order.distinct, Order.firsts] at hnew
    have := hroom hlast
    simp only [List.length_append]
    omega

end Reaching
end

/-! ## Links of a graph -/

variable {g : Graph}

/-- An edge leads from one node to another, be it on the same server or on the next. -/
def LinksTo (g : Graph) (u v : String) : Prop :=
  ∃ e ∈ g.edges, g.isLink e = true ∧ e.source = u ∧ e.target = v

theorem follows_all : Follows (g.neighbours fun _ => true) = g.LinksTo := by
  funext u v
  simp only [follows_neighbours_iff, true_and, LinksTo]

/-- The identities that are reached from a node are those that links lead to. -/
theorem mem_reachable {id v : String} (hid : id ∈ g.ids) :
    v ∈ g.reachable id ↔ ReflTransGen g.LinksTo id v := by
  have hnodes : ∀ u ∈ g.ids, ∀ w ∈ g.neighbours (fun _ => true) u, w ∈ g.ids := by
    intro u _ w huw
    obtain ⟨e, -, hlink, -, -, rfl⟩ := follows_neighbours_iff.mp huw
    exact (isLink_iff.mp hlink).2
  rw [reachable, (reaching_start hid).mem_reach hnodes (by simp), follows_all]

end ProxyPlan.Graph
