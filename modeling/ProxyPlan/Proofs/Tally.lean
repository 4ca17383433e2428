/-
ProxyPlan.Proofs.Tally — a tally counts, and the checks that use one ask for counts.

Meeting a key raises its own count and no other (`count_add`), so after a list of keys the count
of a key is that of the list (`count_ofKeys`). The two checks that look for collisions are thereby
given by numbers of nodes (`sharedTags_eq`, `sharedPorts_eq`), and the tally can be forgotten.
-/
import Mathlib.Data.List.Count
import ProxyPlan.Audit.Structure
import ProxyPlan.Proofs.Text

namespace ProxyPlan.Audit

/-! ## Counting -/

namespace Tally

variable {κ : Type} [DecidableEq κ]

theorem lookup_raise (key k : κ) (counts : List (κ × Nat)) :
    ((raise key counts).lookup k).getD 0 =
      (counts.lookup k).getD 0 + if key = k then 1 else 0 := by
  induction counts with
  | nil =>
    rw [raise, List.lookup_cons]
    by_cases hk : key = k
    · simp [hk]
    · have hne : (k == key) = false := by simpa using Ne.symm hk
      simp [hk, hne]
  | cons entry rest ih =>
    obtain ⟨other, n⟩ := entry
    unfold raise
    split
    case isTrue hother =>
      subst hother
      rw [List.lookup_cons, List.lookup_cons]
      by_cases hk : other = k
      · simp [hk]
      · have hne : (k == other) = false := by simpa using Ne.symm hk
        simp [hk, hne]
    case isFalse hother =>
      rw [List.lookup_cons, List.lookup_cons]
      cases hk : k == other with
      | false => exact ih
      | true =>
        obtain rfl := beq_iff_eq.mp hk
        simp [Ne.symm hother]

/-- Meeting a key raises its count and no other. -/
theorem count_add (t : Tally κ) (key k : κ) :
    (t.add key).count k = t.count k + if key = k then 1 else 0 :=
  lookup_raise key k t.counts

theorem count_foldl (keys : List κ) (t : Tally κ) (k : κ) :
    (keys.foldl add t).count k = t.count k + keys.count k := by
  induction keys generalizing t with
  | nil => simp
  | cons key rest ih =>
    rw [List.foldl_cons, ih, count_add, List.count_cons]
    by_cases hkey : key = k <;> simp [hkey, Nat.add_assoc, Nat.add_comm]

/-- A key has been met as often as it occurs. -/
theorem count_ofKeys (keys : List κ) (k : κ) : (ofKeys keys).count k = keys.count k := by
  rw [ofKeys, count_foldl]
  exact Nat.zero_add _

end Tally

/-! ## Checks by counts -/

theorem count_filterMap_eq {α κ : Type} [DecidableEq κ] (key? : α → Option κ) (xs : List α)
    (k : κ) : (xs.filterMap key?).count k = xs.countP fun x => key? x = some k := by
  rw [List.count_filterMap]
  refine List.countP_congr fun x _ => ?_
  simp

/-- A trimmed tag stands at as many nodes as carry it. -/
theorem count_plainTags (nodes : List Node) (tag : String) :
    (nodes.filterMap plainTag?).count tag = nodes.countP fun m => plainTag? m = some tag :=
  count_filterMap_eq plainTag? nodes tag

/-- A blank tag is no key of the tally. -/
theorem plainTag?_ne_trim {tag : String} (h : Text.blank tag = true) (m : Node) :
    plainTag? m ≠ some (Text.trim tag) := by
  intro hm
  obtain ⟨written, -, hplain⟩ := Option.bind_eq_some_iff.mp hm
  have htight := (Text.tight_of_nonBlank? hplain).1
  rw [Text.blank_trim, h] at htight
  cases htight

/-- The check of tags, without its tally. -/
theorem sharedTags_eq (nodes : List Node) : sharedTags nodes = nodes.flatMap fun n =>
    match plainTag? n with
    | some tag =>
      let holders := nodes.countP fun m => plainTag? m = some tag
      when (1 < holders) (.atNode n.id (.sharedTag tag holders))
    | none => [] := by
  simp only [sharedTags, Tally.count_ofKeys, count_plainTags]
  refine List.flatMap_congr fun n _ => ?_
  cases htag : n.tag? with
  | none => simp [plainTag?, htag]
  | some tag =>
    have hplain : plainTag? n = Text.nonBlank? tag := by rw [plainTag?, htag, Option.bind_some]
    rw [hplain]
    cases hblank : Text.blank tag with
    | true => simp [plainTag?_ne_trim hblank, Text.nonBlank?, hblank, when]
    | false => simp [Text.nonBlank?, hblank]

/-- The check of ports, without its tally. -/
theorem sharedPorts_eq (nodes : List Node) : sharedPorts nodes = nodes.flatMap fun n =>
    match Node.inbound? n with
    | some c =>
      let holders := nodes.countP fun m => listening? m = listening? n
      when (1 < holders) (.atNode n.id (.sharedPort c.tag c.port))
    | none => [] := by
  simp only [sharedPorts, Tally.count_ofKeys, count_filterMap_eq]
  refine List.flatMap_congr fun n _ => ?_
  cases hc : n.inbound? with
  | none => rfl
  | some c =>
    have hn : listening? n = some (n.group, c.port) := by rw [listening?, hc, Option.map_some]
    simp only [hn]

end ProxyPlan.Audit
