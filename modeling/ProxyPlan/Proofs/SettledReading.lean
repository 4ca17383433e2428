/-
ProxyPlan.Proofs.SettledReading — what is read from a value is read from the settled value too.

The converse fails. Of several fields with one name settling keeps the last, and a reader that
refuses the repetition takes the settled value. What a reader takes of an object is said by
`Fields.Takes`, field by field and without the order in which the fields stand: under each of its
names there is at most one value, and that one reads. Settling keeps this (`Takes.settle`), and
from there the law goes through all ways to build a format (`Codec.Settles`).
-/
import ProxyPlan.Proofs.TaggedLaw

namespace ProxyPlan.Json

/-! ## Reading whole -/

/-- A source that is entered allows what is inside. -/
theorem Source.allows_of_enter {s s' : Source} (h : s.enter = .ok s') :
    s'.Allows 0 ∧ ∀ d, s'.Allows d → s.Allows (d + 1) := by
  cases s with
  | text room =>
    match room with
    | 0 | 1 => cases h
    | room + 2 =>
      obtain rfl := Except.ok.inj h
      exact ⟨Nat.succ_pos room, fun d hd => Nat.succ_lt_succ hd⟩
  | body =>
    obtain rfl := Except.ok.inj h
    exact ⟨trivial, fun _ _ => trivial⟩
  | value =>
    obtain rfl := Except.ok.inj h
    exact ⟨trivial, fun _ _ => trivial⟩

theorem Source.Allows.max {s : Source} {d d' : Nat} (h : s.Allows d) (h' : s.Allows d') :
    s.Allows (max d d') := by
  rcases Nat.le_total d d' with hle | hle
  · rwa [Nat.max_eq_right hle]
  · rwa [Nat.max_eq_left hle]

theorem ofList_eq_ok {ending : Ending} {u : Unit} (h : ending.ofList = .ok u) :
    ending = .closed := by
  cases ending <;> first | rfl | cases h

theorem ofObject_eq_ok {ending : Ending} {u : Unit} (h : ending.ofObject = .ok u) :
    ending = .closed := by
  cases ending <;> first | rfl | cases h

namespace Tree

mutual

/-- What is read whole is the tree of the value, which is not too deep. -/
theorem eq_of_whole {t : Tree} {s : Source} {v : Json} (hs : s.Allows 0)
    (h : t.whole s = .ok v) : t = ofJson v ∧ s.Allows v.depth := by
  match t with
  | .null =>
    obtain rfl := Except.ok.inj h
    exact ⟨rfl, hs⟩
  | .bool b =>
    obtain rfl := Except.ok.inj h
    exact ⟨rfl, hs⟩
  | .number value =>
    obtain ⟨n, rfl, rfl⟩ := exists_of_map_eq_ok h
    exact ⟨rfl, hs⟩
  | .text value =>
    obtain ⟨n, rfl, rfl⟩ := exists_of_map_eq_ok h
    exact ⟨rfl, hs⟩
  | .broken begun read skipped => cases h
  | .list items ending =>
    obtain ⟨s', henter, h⟩ := exists_of_bind_eq_ok h
    obtain ⟨values, hvalues, h⟩ := exists_of_bind_eq_ok h
    obtain ⟨u, hending, h⟩ := exists_of_bind_eq_ok h
    obtain rfl := Except.ok.inj h
    obtain ⟨hs', hdeeper⟩ := Source.allows_of_enter henter
    obtain ⟨rfl, hallows⟩ := eq_of_wholeItems hs' hvalues
    rw [ofList_eq_ok hending]
    exact ⟨rfl, hdeeper _ hallows⟩
  | .object fields ending =>
    obtain ⟨s', henter, h⟩ := exists_of_bind_eq_ok h
    obtain ⟨values, hvalues, h⟩ := exists_of_bind_eq_ok h
    obtain ⟨u, hending, h⟩ := exists_of_bind_eq_ok h
    obtain rfl := Except.ok.inj h
    obtain ⟨hs', hdeeper⟩ := Source.allows_of_enter henter
    obtain ⟨rfl, hallows⟩ := eq_of_wholeFields hs' hvalues
    rw [ofObject_eq_ok hending]
    exact ⟨rfl, hdeeper _ hallows⟩
termination_by structural t

theorem eq_of_wholeItems {items : List Tree} {s : Source} {vs : List Json} (hs : s.Allows 0)
    (h : wholeItems items s = .ok vs) : items = ofItems vs ∧ s.Allows (depthOfItems vs) := by
  match items with
  | [] =>
    obtain rfl := Except.ok.inj h
    exact ⟨rfl, hs⟩
  | t :: rest =>
    obtain ⟨v, hv, h⟩ := exists_of_bind_eq_ok h
    obtain ⟨others, hothers, h⟩ := exists_of_bind_eq_ok h
    obtain rfl := Except.ok.inj h
    obtain ⟨rfl, hallows⟩ := eq_of_whole hs hv
    obtain ⟨rfl, hallows'⟩ := eq_of_wholeItems hs hothers
    exact ⟨rfl, hallows.max hallows'⟩
termination_by structural items

theorem eq_of_wholeFields {fields : List (Except Fault String × Tree)} {s : Source}
    {vs : List (String × Json)} (hs : s.Allows 0) (h : wholeFields fields s = .ok vs) :
    fields = ofFields vs ∧ s.Allows (depthOfFields vs) := by
  match fields with
  | [] =>
    obtain rfl := Except.ok.inj h
    exact ⟨rfl, hs⟩
  | (key, t) :: rest =>
    obtain ⟨name, rfl, h⟩ := exists_of_bind_eq_ok h
    obtain ⟨v, hv, h⟩ := exists_of_bind_eq_ok h
    obtain ⟨others, hothers, h⟩ := exists_of_bind_eq_ok h
    obtain rfl := Except.ok.inj h
    obtain ⟨rfl, hallows⟩ := eq_of_whole hs hv
    obtain ⟨rfl, hallows'⟩ := eq_of_wholeFields hs hothers
    exact ⟨rfl, hallows.max hallows'⟩
termination_by structural fields

end

theorem ofJson_inj {v w : Json} (h : ofJson v = ofJson w) : v = w := by
  have hv := whole_ofJson v .value trivial
  rw [h, whole_ofJson w .value trivial] at hv
  exact (Except.ok.inj hv).symm

mutual

/-- A value at hand whole is passed over. -/
theorem skip_ofJson (v : Json) : (ofJson v).skip = .ok () := by
  match v with
  | .null => rfl
  | .bool b => rfl
  | .number n => rfl
  | .text t => rfl
  | .list items =>
    show Except.bind (skipItems (ofItems items)) _ = _
    rw [skipItems_ofItems items]
    rfl
  | .object fields =>
    show Except.bind (skipFields (ofFields fields)) _ = _
    rw [skipFields_ofFields fields]
    rfl
termination_by structural v

theorem skipItems_ofItems (items : List Json) : skipItems (ofItems items) = .ok () := by
  match items with
  | [] => rfl
  | v :: rest =>
    show Except.bind (ofJson v).skip _ = _
    rw [skip_ofJson v]
    exact skipItems_ofItems rest
termination_by structural items

theorem skipFields_ofFields (fields : List (String × Json)) :
    skipFields (ofFields fields) = .ok () := by
  match fields with
  | [] => rfl
  | (name, v) :: rest =>
    show Except.bind (ofJson v).skip _ = _
    rw [skip_ofJson v]
    exact skipFields_ofFields rest
termination_by structural fields

end

end Tree

/-! ## Settled fields -/

theorem filter_insertField_own {p : String → Bool} {name : String} (hp : p name = true) (v : Json)
    {fields : List (String × Json)} (h : Ordered fields) :
    (insertField name v fields).filter (fun f => p f.1) =
      insertField name v (fields.filter fun f => p f.1) := by
  induction fields with
  | nil => simp [insertField, hp]
  | cons f rest ih =>
    obtain ⟨other, kept⟩ := f
    obtain ⟨hother, hrest⟩ := List.pairwise_cons.mp h
    rw [insertField]
    split
    case isTrue hlt =>
      rw [List.filter_cons_of_pos (by simpa using hp), insertField_eq_cons]
      intro g hg
      obtain rfl | hg := List.mem_cons.mp (List.mem_of_mem_filter hg)
      · exact hlt
      · exact String.lt_trans hlt (hother g hg)
    case isFalse hlt =>
      split
      case isTrue heq =>
        subst heq
        rw [List.filter_cons_of_pos (by simpa using hp), insertField, if_neg hlt, if_pos rfl]
      case isFalse hne =>
        by_cases hpo : p other = true
        · rw [List.filter_cons_of_pos (by simpa using hpo),
            List.filter_cons_of_pos (by simpa using hpo), insertField, if_neg hlt, if_neg hne,
            ih hrest]
        · rw [List.filter_cons_of_neg (by simpa using hpo),
            List.filter_cons_of_neg (by simpa using hpo), ih hrest]

theorem filter_insertField_other {p : String → Bool} {name : String} (hp : p name = false)
    (v : Json) (fields : List (String × Json)) :
    (insertField name v fields).filter (fun f => p f.1) = fields.filter fun f => p f.1 := by
  induction fields with
  | nil => simp [insertField, hp]
  | cons f rest ih =>
    obtain ⟨other, kept⟩ := f
    rw [insertField]
    split
    case isTrue => rw [List.filter_cons_of_neg (by simp [hp])]
    case isFalse =>
      split
      case isTrue => rfl
      case isFalse => rw [List.filter_cons, List.filter_cons, ih]

/-- Fields can be picked out by their names before settling or after it. -/
theorem filter_settleFields (p : String → Bool) (fields : List (String × Json)) :
    (settleFields fields).filter (fun f => p f.1) =
      settleFields (fields.filter fun f => p f.1) := by
  induction fields with
  | nil => rfl
  | cons f rest ih =>
    obtain ⟨name, v⟩ := f
    rw [settleFields]
    cases hp : p name with
    | true =>
      rw [filter_insertField_own hp _ (settleFields_ordered rest), ih,
        List.filter_cons_of_pos (by simpa using hp), settleFields]
    | false =>
      rw [filter_insertField_other hp, ih, List.filter_cons_of_neg (by simp [hp])]

/-- The values that stand under a name. -/
def under (name : String) (fields : List (String × Json)) : List Json :=
  (fields.filter fun f => f.1 = name).map Prod.snd

theorem under_cons (name other : String) (v : Json) (rest : List (String × Json)) :
    under name ((other, v) :: rest) =
      if other = name then v :: under name rest else under name rest := by
  by_cases h : other = name <;> simp [under, h]

theorem under_settleFields (name : String) (fields : List (String × Json)) :
    under name (settleFields fields) =
      (settleFields (fields.filter fun f => f.1 = name)).map Prod.snd :=
  congrArg _ (filter_settleFields (fun n => n = name) fields)

/-- Under a name that did not stand there none stands. -/
theorem under_settleFields_nil {name : String} {fields : List (String × Json)}
    (h : under name fields = []) : under name (settleFields fields) = [] := by
  rw [under_settleFields, List.map_eq_nil_iff.mp h]
  rfl

/-- Under a name that stood there once the settled value stands. -/
theorem under_settleFields_single {name : String} {fields : List (String × Json)} {v : Json}
    (h : under name fields = [v]) : under name (settleFields fields) = [v.settle] := by
  obtain ⟨f, hf, rfl⟩ := List.map_eq_singleton_iff.mp h
  rw [under_settleFields, hf]
  rfl

theorem lookup_insertField {name : String} (v : Json) {fields : List (String × Json)}
    (h : Ordered fields) (other : String) :
    (insertField name v fields).lookup other =
      if other = name then some ((fields.lookup name).getD v) else fields.lookup other := by
  induction fields with
  | nil => simp only [insertField, lookup_cons, List.lookup_nil, Option.getD_none]
  | cons f rest ih =>
    obtain ⟨first, kept⟩ := f
    obtain ⟨hfirst, hrest⟩ := List.pairwise_cons.mp h
    rw [insertField]
    split
    case isTrue hlt =>
      have hnone : ((first, kept) :: rest).lookup name = none := by
        rw [List.lookup_eq_none_iff]
        intro g hg
        have hgreater : name < g.1 := by
          obtain rfl | hg := List.mem_cons.mp hg
          · exact hlt
          · exact String.lt_trans hlt (hfirst g hg)
        simpa using fun heq : name = g.1 => String.lt_irrefl _ (heq ▸ hgreater)
      rw [lookup_cons, hnone, Option.getD_none]
    case isFalse hlt =>
      split
      case isTrue heq =>
        subst heq
        by_cases hother : other = name <;> simp [lookup_cons, hother]
      case isFalse hne =>
        rw [lookup_cons, ih hrest, lookup_cons, lookup_cons, if_neg hne]
        by_cases hother : other = first
        · rw [if_pos hother, if_pos hother, if_neg (hother ▸ Ne.symm hne)]
        · rw [if_neg hother, if_neg hother]

theorem lookup_settleFields_none {fields : List (String × Json)} {name : String}
    (h : (settleFields fields).lookup name = none) : ∀ f ∈ fields, f.1 ≠ name := by
  induction fields with
  | nil => exact nofun
  | cons f rest ih =>
    obtain ⟨other, v⟩ := f
    rw [settleFields, lookup_insertField _ (settleFields_ordered rest)] at h
    split at h
    case isTrue => cases h
    case isFalse hne => exact List.forall_mem_cons.mpr ⟨Ne.symm hne, ih h⟩

/-- What stands in a settled object stood last under its name. -/
theorem lookup_settleFields {fields : List (String × Json)} {name : String} {w : Json}
    (h : (settleFields fields).lookup name = some w) :
    ∃ before v after, fields = before ++ (name, v) :: after ∧ (∀ f ∈ after, f.1 ≠ name) ∧
      v.settle = w := by
  induction fields generalizing w with
  | nil => cases h
  | cons f rest ih =>
    obtain ⟨other, v⟩ := f
    rw [settleFields, lookup_insertField _ (settleFields_ordered rest)] at h
    have hlater (h : (settleFields rest).lookup name = some w) :
        ∃ before u after, (other, v) :: rest = before ++ (name, u) :: after ∧
          (∀ f ∈ after, f.1 ≠ name) ∧ u.settle = w := by
      obtain ⟨before, u, after, rfl, hafter, hu⟩ := ih h
      exact ⟨(other, v) :: before, u, after, rfl, hafter, hu⟩
    split at h
    case isFalse => exact hlater h
    case isTrue hname =>
      subst hname
      obtain rfl := Option.some.inj h
      cases hfound : (settleFields rest).lookup name with
      | some u =>
        rw [hfound] at hlater
        exact hlater rfl
      | none => exact ⟨[], v, rest, rfl, lookup_settleFields_none hfound, rfl⟩

/-! ## What is taken of an object -/

namespace Fields

/-- Reading the fields of an object fills some of the slots: under the name of a field stands no
value, or one that reads and the slot was free. -/
def Takes (s : Source) (entries : List (String × Json)) :
    {ρ : Type} → (f : Fields ρ) → f.Slots → f.Slots → Prop
  | _, .done, _, _ => True
  | _, .field name codec _ _ rest, before, after =>
    ((under name entries = [] ∧ after.1 = before.1) ∨
      (before.1 = none ∧ ∃ v x, under name entries = [v] ∧ codec.read s (.ofJson v) = .ok x ∧
        after.1 = some x)) ∧
      rest.Takes s entries before.2 after.2

section

variable {s : Source} {key : String} {v : Json} {more : List (String × Json)} {ρ : Type}
  {f : Fields ρ}

theorem takes_nil {before after : f.Slots} : f.Takes s [] before after ↔ after = before := by
  induction f with
  | done => exact ⟨fun _ => rfl, fun _ => trivial⟩
  | field name codec absent omits rest ih =>
    rw [Takes, ih]
    constructor
    · rintro ⟨⟨-, hfirst⟩ | ⟨-, w, x, hunder, -⟩, hrest⟩
      · exact Prod.ext hfirst hrest
      · cases hunder
    · rintro rfl
      exact ⟨.inl ⟨rfl, rfl⟩, rfl⟩

theorem takes_cons_other (h : key ∉ f.names) {before after : f.Slots} :
    f.Takes s ((key, v) :: more) before after ↔ f.Takes s more before after := by
  induction f with
  | done => exact .rfl
  | field name codec absent omits rest ih =>
    obtain ⟨hname, hrest⟩ := not_or.mp (mt List.mem_cons.mpr h)
    rw [Takes, Takes, ih hrest, under_cons, if_neg hname]

theorem takes_cons_own (hnames : f.names.Nodup) (h : key ∈ f.names) {before after : f.Slots} :
    f.Takes s ((key, v) :: more) before after ↔
      ∃ mid, f.put s key (.ofJson v) before = .ok (some mid) ∧ f.Takes s more mid after := by
  induction f with
  | done => cases h
  | field name codec absent omits rest ih =>
    obtain ⟨hname, hrest⟩ := List.nodup_cons.mp hnames
    by_cases hkey : key = name
    · subst hkey
      rw [Takes, takes_cons_other hname, under_cons, if_pos rfl, put, if_pos rfl]
      constructor
      · rintro ⟨⟨hunder, -⟩ | ⟨hfree, w, x, hunder, hread, hafter⟩, hothers⟩
        · cases hunder
        · obtain ⟨rfl, hnone⟩ := List.cons.inj hunder
          rw [hfree]
          exact ⟨(some x, before.2), by rw [hread]; rfl, .inl ⟨hnone, hafter⟩, hothers⟩
      · rintro ⟨mid, hput, htakes⟩
        cases hfree : before.1 with
        | some y => simp only [hfree] at hput; cases hput
        | none =>
          simp only [hfree] at hput
          obtain ⟨x, hread, hmid⟩ := exists_of_map_eq_ok hput
          obtain rfl := Option.some.inj hmid
          obtain ⟨⟨hnone, hafter⟩ | ⟨hsome, -⟩, hothers⟩ := htakes
          · exact ⟨.inr ⟨rfl, v, x, by rw [hnone], hread, hafter⟩, hothers⟩
          · cases hsome
    · have hin : key ∈ rest.names := (List.mem_cons.mp h).resolve_left hkey
      rw [Takes, ih hrest hin, under_cons, if_neg hkey, put, if_neg hkey]
      constructor
      · rintro ⟨hfirst, mid, hput, htakes⟩
        exact ⟨(before.1, mid), by rw [hput]; rfl, hfirst, htakes⟩
      · rintro ⟨mid, hput, hfirst, htakes⟩
        obtain ⟨found, hfound, hmid⟩ := exists_of_map_eq_ok hput
        cases found with
        | none => cases hmid
        | some others =>
          obtain rfl := Option.some.inj hmid
          exact ⟨hfirst, others, hfound, htakes⟩

theorem put_own (h : key ∈ f.names) {before : f.Slots} {found : Option f.Slots} {t : Tree}
    (hput : f.put s key t before = .ok found) : ∃ mid, found = some mid := by
  induction f with
  | done => cases h
  | field name codec absent omits rest ih =>
    rw [put] at hput
    by_cases hkey : key = name
    · rw [if_pos hkey] at hput
      cases hfree : before.1 with
      | some y => simp only [hfree] at hput; cases hput
      | none =>
        simp only [hfree] at hput
        obtain ⟨x, -, rfl⟩ := exists_of_map_eq_ok hput
        exact ⟨_, rfl⟩
    · rw [if_neg hkey] at hput
      obtain ⟨others, hothers, rfl⟩ := exists_of_map_eq_ok hput
      obtain ⟨mid, rfl⟩ := ih ((List.mem_cons.mp h).resolve_left hkey) hothers
      exact ⟨_, rfl⟩

theorem readFields_cons (f : Fields ρ) (s : Source) (name : String) (v : Json)
    (more : List (String × Json)) (slots : f.Slots) :
    f.readFields s (Tree.ofFields ((name, v) :: more)) slots =
      (f.put s name (.ofJson v) slots).bind fun found =>
        f.readFields s (Tree.ofFields more) (found.getD slots) := by
  show Except.bind (f.put s name (.ofJson v) slots) _ = _
  refine congrArg _ (funext fun found => ?_)
  cases found with
  | some filled => rfl
  | none =>
    show Except.bind (Tree.ofJson v).skip _ = _
    rw [Tree.skip_ofJson]
    rfl

/-- Reading an object by name. -/
theorem readFields_eq_ok (hnames : f.names.Nodup) (entries : List (String × Json))
    {before after : f.Slots} :
    f.readFields s (Tree.ofFields entries) before = .ok after ↔
      f.Takes s entries before after := by
  induction entries generalizing before with
  | nil =>
    rw [takes_nil]
    exact ⟨fun h => (Except.ok.inj h).symm, fun h => by rw [h]; rfl⟩
  | cons e more ih =>
    obtain ⟨key, v⟩ := e
    rw [readFields_cons]
    by_cases hown : key ∈ f.names
    · rw [takes_cons_own hnames hown]
      constructor
      · intro h
        obtain ⟨found, hput, h⟩ := exists_of_bind_eq_ok h
        obtain ⟨mid, rfl⟩ := put_own hown hput
        exact ⟨mid, hput, ih.mp h⟩
      · rintro ⟨mid, hput, htakes⟩
        rw [hput]
        exact ih.mpr htakes
    · rw [takes_cons_other hown, put_other hown, ← ih]
      exact .rfl

/-- Dividing an object by name. -/
theorem divide_eq_ok (hnames : f.names.Nodup) (entries : List (String × Json))
    {before after : f.Slots} {others : List (String × Json)} :
    Codec.divide .body f (Tree.ofFields entries) before = .ok (after, others) ↔
      f.Takes .body entries before after ∧ others = entries.filter fun e => e.1 ∉ f.names := by
  induction entries generalizing before others with
  | nil =>
    rw [takes_nil]
    constructor
    · intro h
      obtain ⟨rfl, rfl⟩ := Prod.mk.inj (Except.ok.inj h)
      exact ⟨rfl, rfl⟩
    · rintro ⟨rfl, rfl⟩
      rfl
  | cons e more ih =>
    obtain ⟨key, v⟩ := e
    by_cases hown : key ∈ f.names
    · rw [takes_cons_own hnames hown, List.filter_cons_of_neg (by simpa using hown)]
      constructor
      · intro h
        obtain ⟨found, hput, -⟩ := exists_of_bind_eq_ok h
        obtain ⟨mid, rfl⟩ := put_own hown hput
        rw [Tree.ofFields, divide_own hput] at h
        obtain ⟨htakes, hothers⟩ := ih.mp h
        exact ⟨⟨mid, hput, htakes⟩, hothers⟩
      · rintro ⟨⟨mid, hput, htakes⟩, hothers⟩
        rw [Tree.ofFields, divide_own hput]
        exact ih.mpr ⟨htakes, hothers⟩
    · rw [takes_cons_other hown, List.filter_cons_of_pos (by simpa using hown), Tree.ofFields,
        divide_other hown (s := .body) trivial]
      constructor
      · intro h
        obtain ⟨⟨slots, rest⟩, hmore, hfound⟩ := exists_of_map_eq_ok h
        obtain ⟨rfl, rfl⟩ := Prod.mk.inj hfound
        obtain ⟨htakes, rfl⟩ := ih.mp hmore
        exact ⟨htakes, rfl⟩
      · rintro ⟨htakes, rfl⟩
        rw [ih.mpr ⟨htakes, rfl⟩]
        rfl

end

end Fields

/-! ## Formats that settled values read in -/

/-- What is read of a value that has been read whole is read of the settled value. -/
def Codec.Settles {α : Type} (c : Codec α) : Prop :=
  ∀ v x, c.read .body (.ofJson v) = .ok x → c.read .body (.ofJson v.settle) = .ok x

/-- The formats of all fields are of this kind. -/
def Fields.Settles : {ρ : Type} → Fields ρ → Prop
  | _, .done => True
  | _, .field _ codec _ _ rest => codec.Settles ∧ rest.Settles

theorem Fields.Takes.settle {ρ : Type} {f : Fields ρ} (hf : f.Settles)
    {entries : List (String × Json)} {before after : f.Slots}
    (h : f.Takes .body entries before after) :
    f.Takes .body (settleFields entries) before after := by
  induction f with
  | done => trivial
  | field name codec absent omits rest ih =>
    obtain ⟨hcodec, hrest⟩ := hf
    obtain ⟨⟨hnone, hafter⟩ | ⟨hfree, v, x, hsingle, hread, hafter⟩, hothers⟩ := h
    · exact ⟨.inl ⟨under_settleFields_nil hnone, hafter⟩, ih hrest hothers⟩
    · exact ⟨.inr ⟨hfree, v.settle, x, under_settleFields_single hsingle, hcodec v x hread, hafter⟩,
        ih hrest hothers⟩

namespace Codec

/-- A format that no list and no object reads in. -/
theorem Settles.of_plain {α : Type} {c : Codec α}
    (hlist : ∀ items x, c.read .body (.list items .closed) ≠ .ok x)
    (hobject : ∀ fields x, c.read .body (.object fields .closed) ≠ .ok x) : c.Settles := by
  intro v x h
  cases v with
  | list items => exact absurd h (hlist _ x)
  | object fields => exact absurd h (hobject _ x)
  | _ => exact h

theorem settles_text : text.Settles := .of_plain nofun nofun

theorem settles_bool : bool.Settles := .of_plain nofun nofun

theorem settles_word32 : word32.Settles := .of_plain nofun nofun

theorem settles_real : real.Settles := .of_plain nofun nofun

theorem settles_naming {κ : Type} (n : Naming κ) : n.codec.Settles := by
  intro v k h
  cases v with
  | list items => cases h
  | object fields =>
    match fields with
    | [] => exact h
    | [(key, w)] =>
      obtain ⟨k', -, hnothing⟩ := exists_of_bind_eq_ok h
      obtain ⟨u, hnothing, -⟩ := exists_of_bind_eq_ok hnothing
      have hsame : w.settle = w := by
        cases w with
        | list items => cases hnothing
        | object fields =>
          cases fields with
          | nil => rfl
          | cons f rest => cases hnothing
        | _ => rfl
      show n.codec.read .body (.ofJson (.object [(key, w.settle)])) = _
      rw [hsame]
      exact h
    | _ :: _ :: _ => cases h
  | _ => exact h

theorem Settles.part {α β : Type} {c : Codec β} (h : c.Settles) {into : β → α}
    {out : α → Option β} : (c.part into out).Settles := by
  intro v x hread
  obtain ⟨y, hy, rfl⟩ := exists_of_map_eq_ok hread
  show (c.read .body (.ofJson v.settle)).map into = _
  rw [h v y hy]
  rfl

theorem read_option {α : Type} (c : Codec α) {v : Json} (h : v.isNull = false) (s : Source) :
    (option c).read s (.ofJson v) = (c.read s (.ofJson v)).map some := by
  cases v with
  | null => cases h
  | _ => rfl

theorem Settles.option {α : Type} {c : Codec α} (h : c.Settles) : (option c).Settles := by
  intro v x hread
  cases hnull : v.isNull with
  | true =>
    cases v with
    | null => exact hread
    | _ => cases hnull
  | false =>
    have hnull' : v.settle.isNull = false := by
      cases v with
      | null => cases hnull
      | _ => rfl
    rw [read_option c hnull] at hread
    obtain ⟨y, hy, rfl⟩ := exists_of_map_eq_ok hread
    rw [read_option c hnull', h v y hy]
    rfl

theorem readAll_settle {α : Type} {c : Codec α} (h : c.Settles) (items : List Json) {xs : List α}
    (hread : c.readAll .body (Tree.ofItems items) = .ok xs) :
    c.readAll .body (Tree.ofItems (settleItems items)) = .ok xs := by
  induction items generalizing xs with
  | nil => exact hread
  | cons v rest ih =>
    obtain ⟨x, hx, hread⟩ := exists_of_bind_eq_ok hread
    obtain ⟨others, hothers, hread⟩ := exists_of_bind_eq_ok hread
    obtain rfl := Except.ok.inj hread
    rw [settleItems, Tree.ofItems, readAll, h v x hx, ih hothers]
    rfl

theorem Settles.list {α : Type} {c : Codec α} (h : c.Settles) : (list c).Settles := by
  intro v xs hread
  cases v with
  | list items =>
    obtain ⟨xs', hall, hread⟩ := exists_of_bind_eq_ok hread
    obtain rfl := Except.ok.inj hread
    show Except.bind (c.readAll .body (Tree.ofItems (settleItems items))) _ = _
    rw [readAll_settle h items hall]
    rfl
  | _ => cases hread

end Codec

namespace Fields

variable {α ρ : Type} {name : String} {codec : Codec α} {rest : Fields ρ}

theorem Settles.required (h : codec.Settles) (hrest : rest.Settles) :
    (required name codec rest).Settles := ⟨h, hrest⟩

theorem Settles.defaulting {absent : α} (h : codec.Settles) (hrest : rest.Settles) :
    (defaulting name codec absent rest).Settles := ⟨h, hrest⟩

theorem Settles.optional (h : codec.Settles) (hrest : rest.Settles) :
    (optional name codec rest).Settles := ⟨h.option, hrest⟩

theorem Settles.items (h : codec.Settles) (hrest : rest.Settles) :
    (items name codec rest).Settles := ⟨h.list, hrest⟩

end Fields

namespace Codec

theorem readItems_settle {ρ : Type} {f : Fields ρ} (hf : f.Settles) {wanted : String}
    {index : Nat} {items : List Json} {xs : ρ} {left : List Tree}
    (h : f.readItems .body wanted .closed index (Tree.ofItems items) = .ok (xs, left)) :
    ∃ rest, left = Tree.ofItems rest ∧
      f.readItems .body wanted .closed index (Tree.ofItems (settleItems items)) =
        .ok (xs, Tree.ofItems (settleItems rest)) := by
  induction f generalizing index items with
  | done =>
    obtain ⟨rfl, rfl⟩ := Prod.mk.inj (Except.ok.inj h)
    exact ⟨items, rfl, rfl⟩
  | field name codec absent omits fields ih =>
    obtain ⟨hcodec, hfields⟩ := hf
    cases items with
    | nil =>
      cases absent with
      | none => cases h
      | some d =>
        obtain ⟨⟨ys, left'⟩, hmore, h⟩ := exists_of_bind_eq_ok h
        obtain ⟨rfl, rfl⟩ := Prod.mk.inj (Except.ok.inj h)
        change fields.readItems .body wanted .closed (index + 1) (Tree.ofItems []) = _ at hmore
        obtain ⟨rest, rfl, hsettled⟩ := ih hfields hmore
        refine ⟨rest, rfl, ?_⟩
        show Except.bind (fields.readItems .body wanted .closed (index + 1)
          (Tree.ofItems (settleItems []))) _ = _
        rw [hsettled]
        rfl
    | cons v items =>
      obtain ⟨x, hx, h⟩ := exists_of_bind_eq_ok h
      obtain ⟨⟨ys, left'⟩, hmore, h⟩ := exists_of_bind_eq_ok h
      obtain ⟨rfl, rfl⟩ := Prod.mk.inj (Except.ok.inj h)
      obtain ⟨rest, rfl, hsettled⟩ := ih hfields hmore
      refine ⟨rest, rfl, ?_⟩
      show Except.bind (codec.read .body (.ofJson v.settle)) _ = _
      rw [hcodec v x hx]
      show Except.bind (fields.readItems .body wanted .closed (index + 1) _) _ = _
      rw [hsettled]
      rfl

theorem settles_record {α ρ : Type} {name : String} {fields : Fields ρ} {make : ρ → α}
    {parts : α → ρ} (hnames : fields.names.Nodup) (hfields : fields.Settles) :
    (record name fields make parts).Settles := by
  intro v x hread
  cases v with
  | object entries =>
    rw [read_record rfl] at hread
    obtain ⟨slots, hslots, hfinish⟩ := exists_of_bind_eq_ok hread
    have htakes := ((Fields.readFields_eq_ok hnames entries).mp hslots).settle hfields
    show (record name fields make parts).read .body (.ofJson (.object (settleFields entries))) = _
    rw [read_record rfl, (Fields.readFields_eq_ok hnames _).mpr htakes]
    exact hfinish
  | list items =>
    obtain ⟨⟨xs, left⟩, hitems, hread⟩ := exists_of_bind_eq_ok hread
    obtain ⟨u, hleft, hread⟩ := exists_of_bind_eq_ok hread
    obtain ⟨rest, rfl, hsettled⟩ := readItems_settle hfields hitems
    -- nothing may be left in the list
    cases rest with
    | cons w rest => cases hleft
    | nil =>
      show Except.bind (fields.readItems .body _ .closed 0 (Tree.ofItems (settleItems items))) _ = _
      rw [hsettled]
      exact hread
  | _ => cases hread

theorem settles_flattened {α ρ σ : Type} {name : String} {own : Fields ρ} {inner : Fields σ}
    {make : ρ × σ → α} {parts : α → ρ × σ} (hownNames : own.names.Nodup)
    (hinnerNames : inner.names.Nodup) (hown : own.Settles) (hinner : inner.Settles) :
    (flattened name own inner make parts).Settles := by
  intro v x hread
  cases v with
  | object entries =>
    obtain ⟨⟨slots, others⟩, hdivide, hread⟩ := exists_of_bind_eq_ok hread
    obtain ⟨u, -, hread⟩ := exists_of_bind_eq_ok hread
    obtain ⟨xs, hxs, hread⟩ := exists_of_bind_eq_ok hread
    obtain ⟨slots', hslots', hmake⟩ := exists_of_bind_eq_ok hread
    obtain ⟨htakes, rfl⟩ := (Fields.divide_eq_ok hownNames entries).mp hdivide
    have hinside := ((Fields.readFields_eq_ok hinnerNames _).mp hslots').settle hinner
    have hdivide' := (Fields.divide_eq_ok hownNames (settleFields entries)).mpr
      ⟨htakes.settle hown, rfl⟩
    show Except.bind (Codec.divide .body own (Tree.ofFields (settleFields entries)) _) _ = _
    rw [hdivide', filter_settleFields fun n => decide (n ∉ own.names)]
    show Except.bind (own.finish slots) _ = _
    rw [hxs]
    show Except.bind (inner.readFields .body _ _) _ = _
    rw [(Fields.readFields_eq_ok hinnerNames _).mpr hinside]
    exact hmake
  | _ => cases hread

end Codec

/-! ## Several kinds -/

section

variable {κ : Type} {field : String} {kinds : Naming κ}

/-- Dividing an object finds a kind among the others: under the name of its field stands
nothing, or one kind and there was none before. -/
def FindsKind (field : String) (kinds : Naming κ) (entries : List (String × Json))
    (before after : Option κ) : Prop :=
  (under field entries = [] ∧ after = before) ∨
    (before = none ∧ ∃ v k, under field entries = [v] ∧ kinds.readKind (.ofJson v) = .ok k ∧
      after = some k)

theorem findsKind_of_divideKind {s : Source} (hs : s.Allows 0) {entries : List (String × Json)}
    {before after : Option κ} {others : List (String × Json)}
    (h : divideKind s field kinds (Tree.ofFields entries) before = .ok (after, others)) :
    FindsKind field kinds entries before after ∧
      others = entries.filter fun e => e.1 ≠ field := by
  induction entries generalizing before others with
  | nil =>
    obtain ⟨rfl, rfl⟩ := Prod.mk.inj (Except.ok.inj h)
    exact ⟨.inl ⟨rfl, rfl⟩, rfl⟩
  | cons e more ih =>
    obtain ⟨name, v⟩ := e
    rw [FindsKind, under_cons]
    by_cases hname : name = field
    · subst hname
      rw [List.filter_cons_of_neg (by simp), if_pos rfl]
      cases before with
      | some k =>
        have hrefused : divideKind s name kinds (Tree.ofFields ((name, v) :: more)) (some k) =
            .error (.repeatedField name) := by
          show ite (name = name) _ _ = _
          rw [if_pos rfl]
        rw [hrefused] at h
        cases h
      | none =>
        rw [Tree.ofFields, divideKind_first] at h
        obtain ⟨k, hk, h⟩ := exists_of_bind_eq_ok h
        obtain ⟨⟨hunder, hafter⟩ | ⟨hnone, -⟩, hothers⟩ := ih h
        · rw [hunder]
          exact ⟨.inr ⟨rfl, v, k, rfl, hk, hafter⟩, hothers⟩
        · cases hnone
    · rw [List.filter_cons_of_pos (by simpa using hname), if_neg hname]
      rw [Tree.ofFields, divideKind_next hname] at h
      obtain ⟨w, hw, hrest⟩ := exists_of_bind_eq_ok h
      obtain ⟨⟨kind, rest⟩, hmore, hfound⟩ := exists_of_map_eq_ok hrest
      obtain ⟨rfl, rfl⟩ := Prod.mk.inj hfound
      obtain ⟨hfinds, rfl⟩ := ih hmore
      rw [Tree.ofJson_inj (Tree.eq_of_whole hs hw).1]
      exact ⟨hfinds, rfl⟩

/-- A value at hand is divided into its kind and the others. -/
theorem divideKind_of_findsKind {entries : List (String × Json)} {before after : Option κ}
    (h : FindsKind field kinds entries before after) :
    divideKind .value field kinds (Tree.ofFields entries) before =
      .ok (after, entries.filter fun e => e.1 ≠ field) := by
  induction entries generalizing before with
  | nil =>
    obtain ⟨-, rfl⟩ | ⟨-, v, k, hunder, -⟩ := h
    · rfl
    · cases hunder
  | cons e more ih =>
    obtain ⟨name, v⟩ := e
    rw [FindsKind, under_cons] at h
    by_cases hname : name = field
    · subst hname
      rw [if_pos rfl] at h
      rw [List.filter_cons_of_neg (by simp)]
      obtain ⟨hunder, -⟩ | ⟨rfl, w, k, hunder, hk, rfl⟩ := h
      · cases hunder
      · obtain ⟨rfl, hnone⟩ := List.cons.inj hunder
        rw [Tree.ofFields, divideKind_first, hk]
        exact ih (.inl ⟨hnone, rfl⟩)
    · rw [if_neg hname] at h
      rw [Tree.ofFields, divideKind_other hname (s := .value) trivial, ih h,
        List.filter_cons_of_pos (by simpa using hname)]
      rfl

theorem FindsKind.settle {entries : List (String × Json)} {after : Option κ}
    (h : FindsKind field kinds entries none after) :
    FindsKind field kinds (settleFields entries) none after := by
  obtain ⟨hunder, hafter⟩ | ⟨hfree, v, k, hunder, hk, hafter⟩ := h
  · exact .inl ⟨under_settleFields_nil hunder, hafter⟩
  · refine .inr ⟨hfree, v.settle, k, under_settleFields_single hunder, ?_, hafter⟩
    -- only texts name kinds, and these settling leaves alone
    cases v with
    | text s => exact hk
    | _ => cases hk

end

/-- An object that reads as a value of several kinds in a text does so when it is settled. -/
theorem Codec.tagged_settle {α κ : Type} {name field : String} {kinds : Naming κ}
    {kindOf : α → κ} {body : κ → Codec α} (hbody : ∀ k, (body k).Settles) {s : Source}
    {fields : List (String × Json)} {x : α}
    (h : (tagged name field kinds kindOf body).read s (.ofJson (.object fields)) = .ok x) :
    (tagged name field kinds kindOf body).readValue (Json.settle (.object fields)) = .ok x := by
  obtain ⟨s', henter, h⟩ := exists_of_bind_eq_ok h
  obtain ⟨⟨kind, others⟩, hdivide, h⟩ := exists_of_bind_eq_ok h
  obtain ⟨u, -, h⟩ := exists_of_bind_eq_ok h
  obtain ⟨hfinds, rfl⟩ := findsKind_of_divideKind (Source.allows_of_enter henter).1 hdivide
  cases kind with
  | none => cases h
  | some k =>
    show Except.bind (divideKind .value field kinds (Tree.ofFields (settleFields fields)) none) _ =
      _
    rw [divideKind_of_findsKind hfinds.settle, filter_settleFields fun n => decide (n ≠ field)]
    exact hbody k _ x h

end ProxyPlan.Json
