/-
ProxyPlan.Proofs.Order — what sorting and removing repetition keep.

The sort of the program is the library's (`sort_eq_insertionSort`), so members, order and
images are the library's to tell. What is added here is stability: members of one rank stand
as they stood before (`insertionSort_stable`), and sorting commutes with filtering
(`filter_insertionSort`), which is what lets the order of all edges be compared with the order
of the edges of one node. It also leaves nothing for a sorted list to depend on but the order
among members of one rank (`insertionSort_congr`). Where no two members share a rank, the
members alone determine it (`eq_of_keys`).

Removing repetition keeps the members as well, and the first member with a
property is the first one both before and after.
-/
import ProxyPlan.Order.Sort
import Mathlib.Data.List.Nodup
import Mathlib.Data.List.Sort
import Mathlib.Order.Basic

namespace ProxyPlan.Order

variable {α : Type}

/-! ## Sorting -/

section Sorting

variable {r : α → α → Prop} [DecidableRel r]

theorem insert_eq_orderedInsert (x : α) (xs : List α) : insert r x xs = xs.orderedInsert r x := by
  induction xs with
  | nil => rfl
  | cons y rest ih => rw [insert, ih, List.orderedInsert_cons]

theorem sort_eq_insertionSort (xs : List α) : sort r xs = xs.insertionSort r := by
  induction xs with
  | nil => rfl
  | cons x rest ih => rw [sort, ih, insert_eq_orderedInsert, List.insertionSort_cons]

section Total

variable [Std.Total r] [IsTrans α r]

/-- An element that goes before members it is related to keeps apart what may precede each
other. -/
theorem orderedInsert_stable {R : α → α → Prop} {x : α} {xs : List α} (hx : ∀ y ∈ xs, R x y)
    (h : xs.Pairwise fun a b => r a b ∧ (r b a → R a b)) :
    (xs.orderedInsert r x).Pairwise fun a b => r a b ∧ (r b a → R a b) := by
  induction xs with
  | nil => simp
  | cons y rest ih =>
    obtain ⟨hy, hrest⟩ := List.pairwise_cons.mp h
    rw [List.orderedInsert_cons]
    split
    case isTrue hxy =>
      refine List.pairwise_cons.mpr ⟨?_, h⟩
      intro z hz
      refine ⟨?_, fun _ => hx z hz⟩
      obtain rfl | hz := List.mem_cons.mp hz
      · exact hxy
      · exact trans_of r hxy (hy z hz).1
    case isFalse hxy =>
      refine List.pairwise_cons.mpr ⟨?_, ih (fun z hz => hx z (by simp [hz])) hrest⟩
      intro z hz
      obtain rfl | hz := (List.mem_orderedInsert r).mp hz
      · exact ⟨(total_of r _ _).resolve_left hxy, fun h => absurd h hxy⟩
      · exact hy z hz

/-- A sorted list is in order, and members of one rank stand as they stood before. -/
theorem insertionSort_stable {R : α → α → Prop} {xs : List α} (h : xs.Pairwise R) :
    (xs.insertionSort r).Pairwise fun a b => r a b ∧ (r b a → R a b) := by
  induction xs with
  | nil => exact .nil
  | cons x rest ih =>
    obtain ⟨hx, hrest⟩ := List.pairwise_cons.mp h
    exact orderedInsert_stable (fun y hy => hx y ((List.mem_insertionSort r).mp hy)) (ih hrest)

omit [Std.Total r] in
/-- An element goes to the same place among the members that pass a test, since
those it is put before are all larger. -/
theorem filter_orderedInsert (test : α → Bool) (x : α) {xs : List α} (h : xs.Pairwise r) :
    (xs.orderedInsert r x).filter test =
      if test x then (xs.filter test).orderedInsert r x else xs.filter test := by
  induction xs with
  | nil => simp [List.filter_cons]
  | cons y rest ih =>
    obtain ⟨hy, hrest⟩ := List.pairwise_cons.mp h
    rw [List.orderedInsert_cons]
    split
    case isFalse hxy =>
      rw [List.filter_cons, ih hrest, List.filter_cons]
      by_cases hx : test x <;> by_cases ty : test y <;> simp [hx, ty, hxy]
    case isTrue hxy =>
      by_cases hx : test x
      · by_cases ty : test y
        · simp [hx, ty, hxy]
        · -- `y` is left out, so `x` has to stand before what follows `y`
          have hle : ∀ z ∈ rest.filter test, r x z := fun z hz =>
            trans_of r hxy (hy z (List.mem_filter.mp hz).1)
          simp only [List.filter_cons, hx, ty, if_true]
          cases hr : rest.filter test with
          | nil => simp
          | cons z zs => simp [hle z (by simp [hr])]
      · simp [List.filter_cons, hx]

/-- Sorting is stable: what is left after filtering stands in the same order. -/
theorem filter_insertionSort (test : α → Bool) (xs : List α) :
    (xs.insertionSort r).filter test = (xs.filter test).insertionSort r := by
  induction xs with
  | nil => rfl
  | cons x rest ih =>
    rw [List.insertionSort_cons, filter_orderedInsert test x (List.pairwise_insertionSort r rest),
      ih, List.filter_cons]
    split <;> rfl

omit [IsTrans α r] in
/-- Lists that hold the same of each rank have the same members. A rank is what may
precede a given element and be preceded by it. -/
theorem mem_iff_of_ranks {xs ys : List α}
    (h : ∀ a, (xs.filter fun b => r a b ∧ r b a) = ys.filter fun b => r a b ∧ r b a) {a : α} :
    a ∈ xs ↔ a ∈ ys := by
  have hrefl : r a a := refl_of r a
  have hfilter := congrArg (a ∈ ·) (h a)
  simpa [hrefl] using hfilter

omit [IsTrans α r] in
/-- A list in order is determined by what it holds of each rank. -/
theorem eq_of_pairwise {xs ys : List α} (hxs : xs.Pairwise r) (hys : ys.Pairwise r)
    (h : ∀ a, (xs.filter fun b => r a b ∧ r b a) = ys.filter fun b => r a b ∧ r b a) :
    xs = ys := by
  have hrefl : ∀ a, r a a := refl_of r
  induction xs generalizing ys with
  | nil =>
    refine (List.eq_nil_iff_forall_not_mem.mpr fun a ha => ?_).symm
    simpa using (mem_iff_of_ranks h).mpr ha
  | cons x xs ih =>
    obtain ⟨y, ys, rfl⟩ := List.exists_cons_of_ne_nil
      (List.ne_nil_of_mem ((mem_iff_of_ranks h).mp List.mem_cons_self))
    rw [List.pairwise_cons] at hxs hys
    -- each head stands in the other list too, so neither may stand after the other
    have hxy : r x y := by
      obtain rfl | hlater := List.mem_cons.mp ((mem_iff_of_ranks h).mpr List.mem_cons_self)
      · exact hrefl y
      · exact hxs.1 y hlater
    have hyx : r y x := by
      obtain rfl | hlater := List.mem_cons.mp ((mem_iff_of_ranks h).mp List.mem_cons_self)
      · exact hrefl x
      · exact hys.1 x hlater
    obtain rfl : x = y := by
      have hheads := h x
      simp only [List.filter_cons, hrefl, hxy, hyx, and_self, decide_true, if_true] at hheads
      exact (List.cons.inj hheads).1
    refine congrArg (List.cons x) (ih hxs.2 hys.2 fun a => ?_)
    have hcons := h a
    rw [List.filter_cons, List.filter_cons] at hcons
    split at hcons
    · exact (List.cons.inj hcons).2
    · exact hcons

/-- Lists that hold the same of each rank, in the same order, are sorted alike. -/
theorem insertionSort_congr {xs ys : List α}
    (h : ∀ a, (xs.filter fun b => r a b ∧ r b a) = ys.filter fun b => r a b ∧ r b a) :
    xs.insertionSort r = ys.insertionSort r := by
  refine eq_of_pairwise (List.pairwise_insertionSort r xs) (List.pairwise_insertionSort r ys) ?_
  intro a
  rw [filter_insertionSort, filter_insertionSort, h a]

end Total

end Sorting

/-- A list in strict order of a key is determined by its members. -/
theorem eq_of_keys {β : Type} [Preorder β] {key : α → β} {xs ys : List α}
    (hxs : xs.Pairwise fun a b => key a < key b) (hys : ys.Pairwise fun a b => key a < key b)
    (h : ∀ a, a ∈ xs ↔ a ∈ ys) : xs = ys := by
  have hnodup : ∀ {zs : List α}, zs.Pairwise (fun a b => key a < key b) → zs.Nodup := by
    intro zs hzs
    exact hzs.imp fun hlt heq => absurd (heq ▸ hlt) (lt_irrefl _)
  have hperm := (List.perm_ext_iff_of_nodup (hnodup hxs) (hnodup hys)).mpr h
  refine hperm.eq_of_pairwise ?_ hxs hys
  intro a b _ _ hlt hgt
  exact absurd hgt (lt_asymm hlt)

/-! ## Removing repetition -/

section Firsts

variable [DecidableEq α]

theorem mem_firsts {x : α} {seen xs : List α} : x ∈ firsts seen xs ↔ x ∈ xs ∧ x ∉ seen := by
  induction xs generalizing seen with
  | nil => simp [firsts]
  | cons y rest ih =>
    rw [firsts]
    split
    case isTrue hy =>
      rw [ih, List.mem_cons]
      constructor
      · rintro ⟨hx, hseen⟩
        exact ⟨.inr hx, hseen⟩
      · rintro ⟨rfl | hx, hseen⟩
        · exact absurd hy hseen
        · exact ⟨hx, hseen⟩
    case isFalse hy =>
      rw [List.mem_cons, ih, List.mem_cons, List.mem_cons]
      by_cases hxy : x = y
      · subst hxy
        simp [hy]
      · simp [hxy]

@[simp] theorem mem_distinct {x : α} {xs : List α} : x ∈ distinct xs ↔ x ∈ xs := by
  simp [distinct, mem_firsts]

theorem firsts_nodup (seen xs : List α) : (firsts seen xs).Nodup := by
  induction xs generalizing seen with
  | nil => exact .nil
  | cons x rest ih =>
    rw [firsts]
    split
    · exact ih seen
    · exact List.nodup_cons.mpr ⟨by simp [mem_firsts], ih (x :: seen)⟩

theorem firsts_sublist (seen xs : List α) : (firsts seen xs).Sublist xs := by
  induction xs generalizing seen with
  | nil => exact .slnil
  | cons x rest ih =>
    unfold firsts
    split
    · exact (ih seen).cons x
    · exact (ih (x :: seen)).cons_cons x

/-- Of two values the one that stands first is taken somewhere before the other is taken at
all. -/
theorem firsts_map_pairwise {β : Type} {R : β → β → Prop} {xs : List β} (h : xs.Pairwise R)
    (f : β → α) (seen : List α) : (firsts seen (xs.map f)).Pairwise fun a b =>
      ∃ x ∈ xs, f x = a ∧ ∀ y ∈ xs, f y = b → R x y := by
  induction xs generalizing seen with
  | nil => exact .nil
  | cons x rest ih =>
    obtain ⟨hx, hrest⟩ := List.pairwise_cons.mp h
    -- behind `x` only values are left that `x` does not have
    have hbehind : ∀ seen', f x ∈ seen' → (firsts seen' (rest.map f)).Pairwise fun a b =>
        ∃ z ∈ x :: rest, f z = a ∧ ∀ y ∈ x :: rest, f y = b → R z y := by
      intro seen' hseen
      refine (ih hrest seen').imp_of_mem ?_
      rintro a b - hb ⟨z, hz, hza, hall⟩
      refine ⟨z, List.mem_cons_of_mem x hz, hza, ?_⟩
      intro y hy hyb
      obtain rfl | hy := List.mem_cons.mp hy
      · exact absurd (hyb ▸ hseen) (mem_firsts.mp hb).2
      · exact hall y hy hyb
    rw [List.map_cons, firsts]
    split
    case isTrue hseen => exact hbehind seen hseen
    case isFalse =>
      refine List.pairwise_cons.mpr ⟨?_, hbehind _ List.mem_cons_self⟩
      intro b hb
      refine ⟨x, List.mem_cons_self, rfl, ?_⟩
      intro y hy hyb
      obtain rfl | hy := List.mem_cons.mp hy
      · exact absurd (hyb ▸ List.mem_cons_self) (mem_firsts.mp hb).2
      · exact hx y hy

theorem distinct_nodup (xs : List α) : (distinct xs).Nodup := firsts_nodup [] xs

theorem firsts_eq_nil {seen xs : List α} (h : ∀ x ∈ xs, x ∈ seen) : firsts seen xs = [] := by
  rw [List.eq_nil_iff_forall_not_mem]
  intro x hx
  obtain ⟨hmem, hseen⟩ := mem_firsts.mp hx
  exact hseen (h x hmem)

theorem firsts_eq_self {seen xs : List α} (h : xs.Nodup) (hseen : ∀ x ∈ xs, x ∉ seen) :
    firsts seen xs = xs := by
  induction xs generalizing seen with
  | nil => rfl
  | cons x rest ih =>
    obtain ⟨hx, hrest⟩ := List.nodup_cons.mp h
    rw [firsts, if_neg (hseen x (by simp)), ih hrest]
    intro y hy
    rw [List.mem_cons, not_or]
    refine ⟨?_, hseen y (by simp [hy])⟩
    rintro rfl
    exact hx hy

theorem distinct_eq_self {xs : List α} (h : xs.Nodup) : distinct xs = xs :=
  firsts_eq_self h (by simp)

/-- The first occurrences that are not seen before are those of the members that are
not. -/
theorem firsts_eq_eraseDups {seen xs : List α} :
    firsts seen xs = (xs.filter fun x => x ∉ seen).eraseDups := by
  induction xs generalizing seen with
  | nil => rfl
  | cons x rest ih =>
    rw [firsts]
    split
    case isTrue hx =>
      rw [ih, List.filter_cons_of_neg (by simpa using hx)]
    case isFalse hx =>
      rw [ih, List.filter_cons_of_pos (by simpa using hx), List.eraseDups_cons,
        List.filter_filter]
      congr 2
      refine List.filter_congr fun y _ => ?_
      by_cases hy : y = x <;> simp [hy]

/-- What is only repeated at the end of a list is not met there for the first time. -/
theorem firsts_append_repeated {seen xs ys : List α} (h : ∀ y ∈ ys, y ∈ xs ∨ y ∈ seen) :
    firsts seen (xs ++ ys) = firsts seen xs := by
  induction xs generalizing seen with
  | nil => exact firsts_eq_nil (by simpa using h)
  | cons x rest ih =>
    have hrest : ∀ y ∈ ys, y ∈ rest ∨ y ∈ x :: seen := by
      intro y hy
      have := h y hy
      simp only [List.mem_cons] at this ⊢
      tauto
    rw [List.cons_append, firsts, firsts, ih hrest]
    split
    case isTrue hx =>
      refine ih fun y hy => ?_
      obtain hy | hy := hrest y hy
      · exact .inl hy
      · obtain rfl | hy := List.mem_cons.mp hy
        · exact .inr hx
        · exact .inr hy
    case isFalse => rfl

/-- What is repeated at the end of a list, and only there, comes last. -/
theorem firsts_append_same {x : α} {seen xs ys : List α} (hseen : x ∉ seen) (hxs : x ∉ xs)
    (hys : ys ≠ []) (hsame : ∀ y ∈ ys, y = x) : firsts seen (xs ++ ys) = firsts seen xs ++ [x] := by
  induction xs generalizing seen with
  | nil =>
    obtain ⟨y, rest, rfl⟩ := List.exists_cons_of_ne_nil hys
    obtain rfl := hsame y (by simp)
    have hrest : firsts (y :: seen) rest = [] :=
      firsts_eq_nil fun z hz => by simp [hsame z (by simp [hz])]
    simp only [List.nil_append, firsts, if_neg hseen, hrest]
  | cons z rest ih =>
    rw [List.mem_cons, not_or] at hxs
    rw [List.cons_append, firsts, firsts]
    split
    · exact ih hseen hxs.2
    · rw [ih (by simp [hxs.1, hseen]) hxs.2, List.cons_append]

theorem distinct_append_same {x : α} {xs ys : List α} (hxs : x ∉ xs) (hys : ys ≠ [])
    (hsame : ∀ y ∈ ys, y = x) : distinct (xs ++ ys) = distinct xs ++ [x] :=
  firsts_append_same (by simp) hxs hys hsame

/-- The first member with a property is not in the way of its repetitions. -/
theorem find?_firsts (test : α → Bool) {seen : List α} (xs : List α)
    (h : ∀ x ∈ seen, test x = false) : (firsts seen xs).find? test = xs.find? test := by
  induction xs generalizing seen with
  | nil => rfl
  | cons x rest ih =>
    rw [firsts, List.find?_cons]
    split
    case isTrue hx =>
      rw [ih h, h x hx]
    case isFalse hx =>
      rw [List.find?_cons]
      cases hx : test x with
      | true => rfl
      | false =>
        refine ih fun y hy => ?_
        obtain rfl | hy := List.mem_cons.mp hy
        · exact hx
        · exact h y hy

theorem find?_distinct (test : α → Bool) (xs : List α) :
    (distinct xs).find? test = xs.find? test :=
  find?_firsts test xs (by simp)

end Firsts

/-! ## The first member -/

/-- The order does not matter where no two members pass the test. -/
theorem find?_perm {p : α → Bool} {xs ys : List α} (h : xs.Perm ys)
    (hsole : ∀ x ∈ ys, ∀ y ∈ ys, p x = true → p y = true → x = y) : xs.find? p = ys.find? p := by
  cases hx : xs.find? p with
  | none =>
    have hnone := List.find?_eq_none.mp hx
    exact (List.find?_eq_none.mpr fun y hy => hnone y (h.mem_iff.mpr hy)).symm
  | some x =>
    have hmem : x ∈ ys := h.mem_iff.mp (List.mem_of_find?_eq_some hx)
    obtain ⟨y, hy⟩ := Option.isSome_iff_exists.mp (List.find?_isSome.mpr ⟨x, hmem, List.find?_some hx⟩)
    rw [hy, hsole x hmem y (List.mem_of_find?_eq_some hy) (List.find?_some hx) (List.find?_some hy)]

theorem find?_congr {p q : α → Bool} {xs : List α} (h : ∀ x ∈ xs, p x = q x) :
    xs.find? p = xs.find? q := by
  induction xs with
  | nil => rfl
  | cons x rest ih =>
    rw [List.find?_cons, List.find?_cons, h x (by simp), ih fun y hy => h y (by simp [hy])]

/-- The first result is the result of the first member that has one. -/
theorem findSome?_eq_bind {β : Type} {f : α → Option β} {p : α → Bool} {xs : List α}
    (h : ∀ x ∈ xs, (f x).isSome = p x) : xs.findSome? f = (xs.find? p).bind f := by
  induction xs with
  | nil => rfl
  | cons x rest ih =>
    have hx := h x (by simp)
    rw [List.findSome?_cons, List.find?_cons, ih fun y hy => h y (by simp [hy])]
    cases hf : f x with
    | none =>
      rw [hf, Option.isSome_none] at hx
      simp [← hx]
    | some y =>
      rw [hf, Option.isSome_some] at hx
      simp [← hx, hf]

/-- If at most one member has a result, it is the first one. -/
theorem findSome?_eq_of_unique {β : Type} {f : α → Option β} {x : α} {xs : List α} (hx : x ∈ xs)
    (h : ∀ y ∈ xs, y ≠ x → f y = none) : xs.findSome? f = f x := by
  cases hf : xs.findSome? f with
  | none => exact (List.findSome?_eq_none_iff.mp hf x hx).symm
  | some y =>
    obtain ⟨before, z, after, rfl, hz, -⟩ := List.findSome?_eq_some_iff.mp hf
    have hzx : z = x := by
      by_contra hne
      rw [h z (by simp) hne] at hz
      cases hz
    rw [← hzx, hz]

/-! ## Results put together -/

variable {β : Type}

/-- What has no result leaves nothing among the results. -/
theorem map_some_filterMap (f : α → Option β) (xs : List α) :
    (xs.filterMap f).map some = (xs.filter fun x => (f x).isSome).map f := by
  rw [List.map_filterMap_some_eq_filter_map_isSome, List.filter_map]
  rfl

theorem flatMap_filter {f : α → List β} {test : α → Bool} {xs : List α}
    (h : ∀ x ∈ xs, test x = false → f x = []) : (xs.filter test).flatMap f = xs.flatMap f := by
  induction xs with
  | nil => rfl
  | cons x rest ih =>
    obtain ⟨hx, hrest⟩ := List.forall_mem_cons.mp h
    cases ht : test x with
    | true => simp [ht, ih hrest]
    | false => simp [ht, hx ht, ih hrest]

end ProxyPlan.Order
