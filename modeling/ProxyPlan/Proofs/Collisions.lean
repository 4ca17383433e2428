/-
ProxyPlan.Proofs.Collisions — tags and ports that collide are reported at every node that takes
part, and nowhere else.

Both checks count how many nodes hold a key and then go over the nodes again. A count above one
says that some other entry of the list holds the key (`one_lt_countP_iff`), where entries are told
apart by their positions and not by their identities, which may repeat. A pass that writes one
report or none at each entry lists the positions in order (`ListedAt`), and both checks are such
passes.
-/
import Mathlib.Data.List.FinRange
import Mathlib.Data.List.Perm.Basic
import ProxyPlan.Proofs.Audit

namespace ProxyPlan.Audit

/-! ## Reports at positions -/

section

variable {α β : Type}

/-- What was found is one report for each position of a list that offends, and no other, in the
order of the positions. -/
def ListedAt {n : Nat} (offends : Fin n → Prop) (reports : Fin n → β → Prop) (found : List β) :
    Prop :=
  ∃ places : List (Fin n), places.Pairwise (· < ·) ∧ (∀ i, i ∈ places ↔ offends i) ∧
    List.Forall₂ reports places found

/-- A pass over some positions that writes a report at those that offend. -/
theorem forall₂_pass {n : Nat} {offends : Fin n → Prop} [DecidablePred offends]
    {reports : Fin n → β → Prop} {f : Fin n → List β}
    (hyes : ∀ i, offends i → ∃ b, f i = [b] ∧ reports i b) (hno : ∀ i, ¬ offends i → f i = [])
    (positions : List (Fin n)) :
    List.Forall₂ reports (positions.filter offends) (positions.flatMap f) := by
  induction positions with
  | nil => exact .nil
  | cons i rest ih =>
    rw [List.flatMap_cons]
    by_cases hi : offends i
    · obtain ⟨b, hb, hreport⟩ := hyes i hi
      rw [hb, List.filter_cons_of_pos (by simpa using hi)]
      exact .cons hreport ih
    · rw [hno i hi, List.filter_cons_of_neg (by simpa using hi)]
      exact ih

/-- A pass over a list that writes a report at the entries that offend. -/
theorem listedAt_flatMap {xs : List α} {offends : Fin xs.length → Prop}
    {reports : Fin xs.length → β → Prop} {f : α → List β}
    (hyes : ∀ i : Fin xs.length, offends i → ∃ b, f xs[i] = [b] ∧ reports i b)
    (hno : ∀ i : Fin xs.length, ¬ offends i → f xs[i] = []) :
    ListedAt offends reports (xs.flatMap f) := by
  classical
  have hpass : xs.flatMap f = (List.finRange xs.length).flatMap fun i => f xs[i] := by
    conv_lhs => rw [← List.map_getElem_finRange xs]
    exact List.flatMap_map _ _ _
  refine ⟨(List.finRange xs.length).filter offends, (List.pairwise_lt_finRange _).filter _,
    fun i => by simp, ?_⟩
  rw [hpass]
  exact forall₂_pass hyes hno _

/-- Something is counted more than once if it is met at another position. -/
theorem one_lt_countP_iff {p : α → Bool} {xs : List α} (i : Fin xs.length) (h : p xs[i] = true) :
    1 < xs.countP p ↔ ∃ j, j ≠ i ∧ p xs[j] = true := by
  have hcount : xs.countP p = (xs.eraseIdx i).countP p + 1 := by
    rw [← (List.getElem_cons_eraseIdx_perm i.isLt).countP_eq p]
    exact List.countP_cons_of_pos h
  rw [hcount, Nat.lt_add_left_iff_pos, List.countP_pos_iff]
  simp only [List.mem_eraseIdx_iff_getElem]
  constructor
  · rintro ⟨x, ⟨j, hj, hne, rfl⟩, hx⟩
    exact ⟨⟨j, hj⟩, fun heq => hne (congrArg Fin.val heq), hx⟩
  · rintro ⟨j, hne, hj⟩
    exact ⟨_, ⟨j, j.isLt, fun heq => hne (Fin.ext heq), rfl⟩, hj⟩

end

/-! ## Colliding entries -/

/-- The entry has a tag that is not blank, and another entry has the same one, white space around
them aside. -/
def SharesTag (nodes : List Node) (i : Fin nodes.length) : Prop :=
  ∃ tag, tag ≠ "" ∧ nodes[i].tag?.map Text.trim = some tag ∧
    ∃ j, j ≠ i ∧ nodes[j].tag?.map Text.trim = some tag

/-- The entry is an inbound, and another entry is one on the same port in the same group. -/
def SharesPort (nodes : List Node) (i : Fin nodes.length) : Prop :=
  ∃ c, nodes[i].inbound? = some c ∧
    ∃ j, j ≠ i ∧ ∃ d, nodes[j].inbound? = some d ∧
      nodes[j].group = nodes[i].group ∧ d.port = c.port

theorem plainTag?_eq_some {n : Node} {tag : String} :
    plainTag? n = some tag ↔ tag ≠ "" ∧ n.tag?.map Text.trim = some tag := by
  cases htag : n.tag? with
  | none => simp [plainTag?, htag]
  | some written =>
    rw [plainTag?, htag, Option.bind_some, Text.nonBlank?_eq_some, Option.map_some,
      Option.some.injEq, ← Bool.not_eq_true, Text.blank_iff]
    constructor
    · rintro ⟨hblank, rfl⟩
      exact ⟨hblank, rfl⟩
    · rintro ⟨hblank, rfl⟩
      exact ⟨hblank, rfl⟩

theorem sharesTag_iff {nodes : List Node} {i : Fin nodes.length} {tag : String}
    (h : plainTag? nodes[i] = some tag) :
    SharesTag nodes i ↔ 1 < nodes.countP fun m => plainTag? m = some tag := by
  rw [one_lt_countP_iff i (by simpa using h)]
  obtain ⟨hne, htag⟩ := plainTag?_eq_some.mp h
  simp only [decide_eq_true_eq]
  constructor
  · rintro ⟨tag', -, hi, j, hj, hjtag⟩
    obtain rfl := Option.some.inj (htag.symm.trans hi)
    exact ⟨j, hj, plainTag?_eq_some.mpr ⟨hne, hjtag⟩⟩
  · rintro ⟨j, hj, hjtag⟩
    exact ⟨tag, hne, htag, j, hj, (plainTag?_eq_some.mp hjtag).2⟩

theorem sharesPort_iff {nodes : List Node} {i : Fin nodes.length} {c : Inbound}
    (h : nodes[i].inbound? = some c) :
    SharesPort nodes i ↔ 1 < nodes.countP fun m => listening? m = listening? nodes[i] := by
  rw [one_lt_countP_iff i (by simp)]
  simp only [decide_eq_true_eq, listening?, h, Option.map_some, Option.map_eq_some_iff,
    Prod.mk.injEq]
  constructor
  · rintro ⟨c', hc', j, hj, d, hd, hgroup, hport⟩
    obtain rfl := Option.some.inj (h.symm.trans hc')
    exact ⟨j, hj, d, hd, hgroup, hport⟩
  · rintro ⟨j, hj, d, hd, hgroup, hport⟩
    exact ⟨c, h, j, hj, d, hd, hgroup, hport⟩

/-! ## What is reported -/

/-- The report of a shared tag at an entry, with the number of entries that have it. -/
def ReportsTag (nodes : List Node) (i : Fin nodes.length) (issue : Issue) : Prop :=
  ∃ tag, nodes[i].tag?.map Text.trim = some tag ∧
    let holders := nodes.countP fun m => m.tag?.map Text.trim = some tag
    issue = .atNode nodes[i].id (.sharedTag tag holders) ∧
      issue.finding.message =
        "Tag " ++ Finding.quote tag ++ " is used by " ++ toString holders ++
          " nodes; tags must be unique"

/-- The report of a shared port at an entry. -/
def ReportsPort (nodes : List Node) (i : Fin nodes.length) (issue : Issue) : Prop :=
  ∃ c, nodes[i].inbound? = some c ∧ issue = .atNode nodes[i].id (.sharedPort c.tag c.port) ∧
    issue.finding.message =
      "Inbound " ++ Finding.quote c.tag ++ " listens on port " ++ toString c.port.toNat ++
        ", which another inbound on the same server also uses"

theorem listedAt_sharedTags (nodes : List Node) :
    ListedAt (SharesTag nodes) (ReportsTag nodes) (sharedTags nodes) := by
  rw [sharedTags_eq]
  refine listedAt_flatMap (fun i hi => ?shared) fun i hi => ?alone
  case shared =>
    obtain ⟨tag, hne, htag, -⟩ := id hi
    have hplain : plainTag? nodes[i] = some tag := plainTag?_eq_some.mpr ⟨hne, htag⟩
    have hcount : (nodes.countP fun m => plainTag? m = some tag) =
        nodes.countP fun m => m.tag?.map Text.trim = some tag := by
      refine List.countP_congr fun m _ => ?_
      simp only [decide_eq_true_eq, plainTag?_eq_some]
      exact and_iff_right hne
    rw [sharesTag_iff hplain] at hi
    refine ⟨.atNode nodes[i].id (.sharedTag tag (nodes.countP fun m => plainTag? m = some tag)),
      ?_, tag, htag, by rw [hcount], by rw [hcount]; rfl⟩
    simp only [hplain, when, hi, decide_true, if_true]
  case alone =>
    cases hplain : plainTag? nodes[i] with
    | none => rfl
    | some tag =>
      rw [sharesTag_iff hplain] at hi
      simp only [when, hi, decide_false, Bool.false_eq_true, if_false]

theorem listedAt_sharedPorts (nodes : List Node) :
    ListedAt (SharesPort nodes) (ReportsPort nodes) (sharedPorts nodes) := by
  rw [sharedPorts_eq]
  refine listedAt_flatMap (fun i hi => ?shared) fun i hi => ?alone
  case shared =>
    obtain ⟨c, hc, -⟩ := id hi
    rw [sharesPort_iff hc] at hi
    refine ⟨.atNode nodes[i].id (.sharedPort c.tag c.port), ?_, c, hc, rfl, rfl⟩
    simp only [hc, when, hi, decide_true, if_true]
  case alone =>
    cases hc : nodes[i].inbound? with
    | none => rfl
    | some c =>
      rw [sharesPort_iff hc] at hi
      simp only [when, hi, decide_false, Bool.false_eq_true, if_false]

/-! ## The report of a graph -/

/-- Checking nodes and edges reports a collision of tags at every node that takes part in one and
at no other, once for each, in the order of the nodes; and so it does with collisions of ports. -/
theorem collisions_reported (nodes : List Node) (edges : List Edge) :
    ListedAt (SharesTag nodes) (ReportsTag nodes)
        ((check ⟨nodes, edges⟩).all.filter fun i => i.code = "S001") ∧
      ListedAt (SharesPort nodes) (ReportsPort nodes)
        ((check ⟨nodes, edges⟩).all.filter fun i => i.code = "S002") := by
  have htags : ((check ⟨nodes, edges⟩).all.filter fun i => i.code = "S001") =
      sharedTags nodes := by
    refine filter_check (fun f hf => ?_) (by simp [checks])
    cases f <;> simp_all [Finding.code, Finding.level]
  have hports : ((check ⟨nodes, edges⟩).all.filter fun i => i.code = "S002") =
      sharedPorts nodes := by
    refine filter_check (fun f hf => ?_) (by simp [checks])
    cases f <;> simp_all [Finding.code, Finding.level]
  rw [htags, hports]
  exact ⟨listedAt_sharedTags nodes, listedAt_sharedPorts nodes⟩

end ProxyPlan.Audit
