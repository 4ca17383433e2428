/-
ProxyPlan.Proofs.Settle — what settling a value changes and what it keeps.

Settling puts the fields of every object in increasing order of their names.
When no name repeats it does nothing else (`settleFields_perm`), so a field is
found where it was; when the names are in order already it does nothing at all
(`settleFields_eq_map`), so a settled value stays as it is.
-/
import Mathlib.Data.List.Nodup
import ProxyPlan.Json.Value

namespace ProxyPlan.Json

/-! ## Fields by name -/

/-- The names are in increasing order, none twice. -/
def Ordered (fields : List (String × Json)) : Prop :=
  fields.Pairwise fun f g => f.1 < g.1

/-- No name repeats. -/
def Distinct {α : Type} (fields : List (String × α)) : Prop :=
  (fields.map Prod.fst).Nodup

/-- Fields whose names are listed in order are in order. -/
theorem ordered_of_names {fields : List (String × Json)} (names : List String)
    (h : fields.map Prod.fst = names) (hnames : names.Pairwise (· < ·)) : Ordered fields :=
  List.pairwise_map.mp (h ▸ hnames)

theorem lookup_cons {α : Type} (name other : String) (x : α) (rest : List (String × α)) :
    ((other, x) :: rest).lookup name = if name = other then some x else rest.lookup name := by
  rw [List.lookup_cons]
  cases h : name == other with
  | true => rw [if_pos (beq_iff_eq.mp h)]
  | false => rw [if_neg (beq_eq_false_iff_ne.mp h)]

/-- A field of distinct names is found by its name. -/
theorem lookup_eq_some {α : Type} {fields : List (String × α)} (h : Distinct fields)
    {name : String} {x : α} : fields.lookup name = some x ↔ (name, x) ∈ fields := by
  induction fields with
  | nil => simp
  | cons f rest ih =>
    obtain ⟨other, y⟩ := f
    obtain ⟨hother, hrest⟩ := List.nodup_cons.mp h
    rw [lookup_cons, List.mem_cons, Prod.mk.injEq]
    by_cases hname : name = other
    · subst hname
      have hnot : (name, x) ∉ rest := fun hmem => hother (List.mem_map.mpr ⟨_, hmem, rfl⟩)
      simp [hnot, eq_comm]
    · simp [hname, ih hrest]

/-- Where a field is found does not depend on the order of the others. -/
theorem lookup_perm {α : Type} {fields fields' : List (String × α)} (h : Distinct fields)
    (hperm : fields'.Perm fields) (name : String) : fields'.lookup name = fields.lookup name := by
  have h' : Distinct fields' := (hperm.map Prod.fst).nodup_iff.mpr h
  refine Option.ext fun x => ?_
  rw [lookup_eq_some h', lookup_eq_some h, hperm.mem_iff]

theorem lookup_map {α β : Type} (f : α → β) (fields : List (String × α)) (name : String) :
    (fields.map fun field => (field.1, f field.2)).lookup name = (fields.lookup name).map f := by
  induction fields with
  | nil => rfl
  | cons field rest ih =>
    obtain ⟨other, x⟩ := field
    rw [List.map_cons, lookup_cons, lookup_cons, ih]
    split <;> rfl

/-! ## Putting a field in its place -/

theorem mem_insertField {name : String} {v : Json} {fields : List (String × Json)}
    {f : String × Json} (h : f ∈ insertField name v fields) : f = (name, v) ∨ f ∈ fields := by
  induction fields with
  | nil => simpa [insertField] using h
  | cons g rest ih =>
    obtain ⟨other, kept⟩ := g
    simp only [insertField] at h
    split at h
    · simpa using h
    split at h
    · exact .inr h
    · obtain rfl | h := List.mem_cons.mp h
      · simp
      · exact (ih h).imp_right fun hmem => List.mem_cons_of_mem _ hmem

theorem insertField_ordered (name : String) (v : Json) {fields : List (String × Json)}
    (h : Ordered fields) : Ordered (insertField name v fields) := by
  induction fields with
  | nil => simp [insertField, Ordered]
  | cons g rest ih =>
    obtain ⟨other, kept⟩ := g
    obtain ⟨hother, hrest⟩ := List.pairwise_cons.mp h
    simp only [insertField]
    split
    case isTrue hlt =>
      refine List.pairwise_cons.mpr ⟨fun f hf => ?_, h⟩
      obtain rfl | hf := List.mem_cons.mp hf
      · exact hlt
      · exact String.lt_trans hlt (hother f hf)
    split
    case isTrue => exact h
    case isFalse hle hne =>
      refine List.pairwise_cons.mpr ⟨fun f hf => ?_, ih hrest⟩
      obtain rfl | hf := mem_insertField hf
      · have hle : other ≤ name := String.not_lt.mp hle
        by_contra hnot
        exact hne (String.le_antisymm (String.not_lt.mp hnot) hle)
      · exact hother f hf

theorem insertField_perm {name : String} (v : Json) {fields : List (String × Json)}
    (h : name ∉ fields.map Prod.fst) : (insertField name v fields).Perm ((name, v) :: fields) := by
  induction fields with
  | nil => exact .refl _
  | cons g rest ih =>
    obtain ⟨other, kept⟩ := g
    simp only [List.map_cons, List.mem_cons, not_or] at h
    simp only [insertField]
    split
    · exact .refl _
    · rw [if_neg h.1]
      exact ((ih h.2).cons _).trans (.swap _ _ _)

theorem insertField_eq_cons {name : String} (v : Json) {fields : List (String × Json)}
    (h : ∀ f ∈ fields, name < f.1) : insertField name v fields = (name, v) :: fields := by
  cases fields with
  | nil => rfl
  | cons g rest => rw [insertField, if_pos (h g (by simp))]

/-! ## Settled values -/

/-- Settling changes nothing. -/
def Settled (v : Json) : Prop := v.settle = v

theorem settleItems_eq_map (items : List Json) : settleItems items = items.map settle := by
  induction items with
  | nil => rfl
  | cons v rest ih => rw [settleItems, ih, List.map_cons]

theorem settleFields_ordered (fields : List (String × Json)) : Ordered (settleFields fields) := by
  induction fields with
  | nil => exact .nil
  | cons f rest ih => exact insertField_ordered _ _ ih

/-- Without repeated names settling only moves fields. -/
theorem settleFields_perm {fields : List (String × Json)} (h : Distinct fields) :
    (settleFields fields).Perm (fields.map fun f => (f.1, f.2.settle)) := by
  induction fields with
  | nil => exact .refl _
  | cons f rest ih =>
    obtain ⟨name, v⟩ := f
    obtain ⟨hname, hrest⟩ := List.nodup_cons.mp h
    have hperm := ih hrest
    have hnot : name ∉ (settleFields rest).map Prod.fst := by
      rw [(hperm.map Prod.fst).mem_iff]
      simpa using hname
    exact (insertField_perm _ hnot).trans (hperm.cons _)

/-- Fields in order stay where they are. -/
theorem settleFields_eq_map {fields : List (String × Json)} (h : Ordered fields) :
    settleFields fields = fields.map fun f => (f.1, f.2.settle) := by
  induction fields with
  | nil => rfl
  | cons f rest ih =>
    obtain ⟨name, v⟩ := f
    obtain ⟨hname, hrest⟩ := List.pairwise_cons.mp h
    rw [settleFields, ih hrest, List.map_cons]
    refine insertField_eq_cons _ fun g hg => ?_
    obtain ⟨f, hf, rfl⟩ := List.mem_map.mp hg
    exact hname f hf

theorem settled_list {items : List Json} (h : ∀ v ∈ items, Settled v) : Settled (.list items) := by
  rw [Settled, settle, settleItems_eq_map, List.map_congr_left h, List.map_id']

theorem settled_object {fields : List (String × Json)} (hordered : Ordered fields)
    (h : ∀ f ∈ fields, Settled f.2) : Settled (.object fields) := by
  rw [Settled, settle, settleFields_eq_map hordered]
  have hsame : ∀ f ∈ fields, (f.1, f.2.settle) = f := fun f hf => Prod.ext rfl (h f hf)
  rw [List.map_congr_left hsame, List.map_id']

mutual

/-- A settled value stays as it is. -/
theorem settled_settle (v : Json) : Settled v.settle := by
  match v with
  | .null => rfl
  | .bool b => rfl
  | .number n => rfl
  | .text s => rfl
  | .list items =>
    rw [settle]
    exact settled_list (settled_settleItems items)
  | .object fields =>
    rw [settle]
    exact settled_object (settleFields_ordered fields) (settled_settleFields fields)
termination_by structural v

theorem settled_settleItems (items : List Json) : ∀ v ∈ settleItems items, Settled v := by
  match items with
  | [] => simp [settleItems]
  | v :: rest =>
    intro w hw
    obtain rfl | hw := List.mem_cons.mp hw
    · exact settled_settle v
    · exact settled_settleItems rest w hw
termination_by structural items

theorem settled_settleFields (fields : List (String × Json)) :
    ∀ f ∈ settleFields fields, Settled f.2 := by
  match fields with
  | [] => simp [settleFields]
  | (name, v) :: rest =>
    intro f hf
    obtain rfl | hf := mem_insertField hf
    · exact settled_settle v
    · exact settled_settleFields rest f hf
termination_by structural fields

end

/-! ## Looking into settled values -/

/-- A field of a settled object is the field that was written, settled. -/
theorem get?_settle {fields : List (String × Json)} (h : Distinct fields) (name : String) :
    (settle (.object fields)).get? name = ((Json.object fields).get? name).map settle := by
  have hdistinct : Distinct (fields.map fun f => (f.1, f.2.settle)) := by
    simpa [Distinct, Function.comp_def] using h
  rw [settle, get?, get?, lookup_perm hdistinct (settleFields_perm h), lookup_map]

end ProxyPlan.Json
