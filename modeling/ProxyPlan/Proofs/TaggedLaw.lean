/-
ProxyPlan.Proofs.TaggedLaw — values whose fields lie among others are read back.

Two formats mix the fields of a record with fields that are not its own: the
name of a kind stands among the fields of that kind, and a flattened record
lies among the fields of the record around it. Both are read by dividing an
object. One side takes the fields it knows by name, the other gets all the rest
as they stand (`divideKind_eq`, `divide_filled`). Neither side minds in which
order its fields come, so nothing is asked but that the names of the two are
apart.
-/
import ProxyPlan.Proofs.CodecLaw

namespace ProxyPlan.Json

/-! ## The kind among the fields -/

section Kind

variable {κ : Type} {s : Source} {field : String} {kinds : Naming κ}

/-- The first field that names the kind settles it. -/
theorem divideKind_first (t : Tree) (rest : List (Except Fault String × Tree)) :
    divideKind s field kinds ((.ok field, t) :: rest) none =
      (kinds.readKind t).bind fun k => divideKind s field kinds rest (some k) := by
  show ite (field = field) _ _ = _
  rw [if_pos rfl]
  rfl

/-- A field of another name is read whole and passed on. -/
theorem divideKind_next {name : String} (hname : name ≠ field) (t : Tree)
    (rest : List (Except Fault String × Tree)) (kind : Option κ) :
    divideKind s field kinds ((.ok name, t) :: rest) kind =
      (t.whole s).bind fun v =>
        (divideKind s field kinds rest kind).map fun found => (found.1, (name, v) :: found.2) := by
  show ite (name = field) _ (Except.bind (t.whole s) _) = _
  rw [if_neg hname]
  refine congrArg _ (funext fun v => ?_)
  show Except.bind (divideKind s field kinds rest kind) _ = _
  cases divideKind s field kinds rest kind <;> rfl

theorem divideKind_other {name : String} (hname : name ≠ field) {v : Json}
    (hv : s.Allows v.depth) (rest : List (Except Fault String × Tree)) (kind : Option κ) :
    divideKind s field kinds ((.ok name, .ofJson v) :: rest) kind =
      (divideKind s field kinds rest kind).map fun found => (found.1, (name, v) :: found.2) := by
  rw [divideKind_next hname, Tree.whole_ofJson v s hv]
  rfl

theorem divideKind_own {k : κ} (hk : kinds.find? (kinds.name k) = some k)
    (rest : List (Except Fault String × Tree)) :
    divideKind s field kinds ((.ok field, .text (.ok (kinds.name k))) :: rest) none =
      divideKind s field kinds rest (some k) := by
  have hkind : kinds.readKind (.text (.ok (kinds.name k))) = .ok k := by
    show kinds.find (kinds.name k) = _
    rw [Naming.find, hk]
  rw [divideKind_first, hkind]
  rfl

theorem divideKind_append {before : List (String × Json)}
    (h : ∀ e ∈ before, e.1 ≠ field ∧ s.Allows e.2.depth) (rest : List (String × Json))
    (kind : Option κ) :
    divideKind s field kinds (Tree.ofFields (before ++ rest)) kind =
      (divideKind s field kinds (Tree.ofFields rest) kind).map
        fun found => (found.1, before ++ found.2) := by
  induction before with
  | nil =>
    rw [List.nil_append]
    cases divideKind s field kinds (Tree.ofFields rest) kind <;> rfl
  | cons e before ih =>
    obtain ⟨name, v⟩ := e
    obtain ⟨hname, hallows⟩ := h (name, v) (by simp)
    rw [List.cons_append, Tree.ofFields, divideKind_other hname hallows,
      ih fun e he => h e (by simp [he])]
    cases divideKind s field kinds (Tree.ofFields rest) kind <;> rfl

/-- The kind is found wherever it stands. -/
theorem divideKind_eq {before after : List (String × Json)} {k : κ}
    (hk : kinds.find? (kinds.name k) = some k)
    (h : ∀ e ∈ before ++ after, e.1 ≠ field ∧ s.Allows e.2.depth) :
    divideKind s field kinds
        (Tree.ofFields (before ++ (field, .text (kinds.name k)) :: after)) none =
      .ok (some k, before ++ after) := by
  have hafter : divideKind s field kinds (Tree.ofFields after) (some k) = .ok (some k, after) := by
    have hall : divideKind s field kinds (Tree.ofFields (after ++ [])) (some k) =
        .ok (some k, after ++ []) :=
      divideKind_append (fun e he => h e (List.mem_append_right before he)) [] (some k)
    rwa [List.append_nil] at hall
  rw [divideKind_append fun e he => h e (List.mem_append_left after he), Tree.ofFields,
    Tree.ofJson, divideKind_own hk, hafter]
  rfl

end Kind

/-- A value of several kinds is read from its fields if what its kind writes of it is, and
if its kind is known by its name and has no field called like the one for the kind. -/
theorem Codec.ReturnsObject.tagged {α κ : Type} {room : Nat} {name field : String}
    {kinds : Naming κ} {kindOf : α → κ} {body : κ → Codec α} {x : α}
    {fields : List (String × Json)} (h : (body (kindOf x)).ReturnsObject room x fields)
    (hkind : kinds.find? (kinds.name (kindOf x)) = some (kindOf x))
    (hfield : field ∉ fields.map Prod.fst) :
    (Codec.tagged name field kinds kindOf body).ReturnsObject room x
      ((field, .text (kinds.name (kindOf x))) :: fields) where
  writes := by simp only [Codec.tagged, h.writes]
  distinct := List.nodup_cons.mpr ⟨hfield, h.distinct⟩
  depth := List.forall_mem_cons.mpr ⟨Nat.zero_le _, h.depth⟩
  reads φ source hs entries hentries := by
    obtain ⟨s', henter, hs'⟩ := hs.enter
    rw [List.map_cons, φ.text] at hentries
    -- the kind stands somewhere among the entries, and the others are the fields
    have hmem : (field, Json.text (kinds.name (kindOf x))) ∈ entries :=
      hentries.mem_iff.mpr List.mem_cons_self
    obtain ⟨before, after, rfl⟩ := List.append_of_mem hmem
    have hothers : (before ++ after).Perm (fields.map fun f => (f.1, φ.apply f.2)) :=
      (List.perm_middle.symm.trans hentries).cons_inv
    have hother : ∀ e ∈ before ++ after, e.1 ≠ field ∧ s'.Allows e.2.depth := by
      intro e he
      obtain ⟨f, hf, rfl⟩ := List.mem_map.mp (hothers.mem_iff.mp he)
      refine ⟨?_, hs'.mono (Nat.le_trans (φ.depth_le f.2) (h.depth f hf))⟩
      rintro rfl
      exact hfield (List.mem_map.mpr ⟨f, hf, rfl⟩)
    simp only [Codec.tagged, henter]
    show Except.bind (divideKind s' field kinds _ none) _ = _
    rw [divideKind_eq hkind hother]
    exact h.reads φ .body trivial (before ++ after) hothers

/-! ## A record among the fields of another -/

namespace Fields

/-- No field has this name. -/
theorem put_other {ρ : Type} {f : Fields ρ} {name : String} (h : name ∉ f.names) (s : Source)
    (t : Tree) (slots : f.Slots) : f.put s name t slots = .ok none := by
  induction f with
  | done => rfl
  | field other codec absent omits rest ih =>
    obtain ⟨hname, hrest⟩ := not_or.mp (mt List.mem_cons.mpr h)
    rw [put, if_neg hname, ih hrest]
    rfl

theorem divide_own {ρ : Type} {f : Fields ρ} {s : Source} {name : String} {t : Tree}
    {slots slots' : f.Slots} (h : f.put s name t slots = .ok (some slots'))
    (rest : List (Except Fault String × Tree)) :
    Codec.divide s f ((.ok name, t) :: rest) slots = Codec.divide s f rest slots' := by
  show Except.bind (f.put s name t slots) _ = _
  rw [h]
  rfl

theorem divide_other {ρ : Type} {f : Fields ρ} {s : Source} {name : String}
    (h : name ∉ f.names) {v : Json} (hv : s.Allows v.depth) (slots : f.Slots)
    (rest : List (Except Fault String × Tree)) :
    Codec.divide s f ((.ok name, .ofJson v) :: rest) slots =
      (Codec.divide s f rest slots).map fun found => (found.1, (name, v) :: found.2) := by
  show Except.bind (f.put s name _ slots) _ = _
  rw [put_other h]
  show Except.bind ((Tree.ofJson v).whole s) _ = _
  rw [Tree.whole_ofJson v s hv]
  show Except.bind (Codec.divide s f rest slots) _ = _
  cases Codec.divide s f rest slots <;> rfl

/-- The own fields are read into their slots, and the others set apart. -/
theorem divide_filled {ρ : Type} {room : Nat} {f : Fields ρ} {x : ρ} (φ : Arrangement)
    {s : Source} (hs : s.Allows room) (hnames : f.names.Nodup) (hreturns : f.Returns room x)
    (entries : List (String × Json)) (seen : List String) (hdistinct : Distinct entries)
    (hmem : ∀ e ∈ entries, (∃ v, (e.1, v) ∈ f.write x ∧ e.2 = φ.apply v) ∨
      (e.1 ∉ f.names ∧ e.2.depth ≤ room))
    (hnew : ∀ e ∈ entries, e.1 ∉ seen) :
    Codec.divide s f (Tree.ofFields entries) (f.filled seen x) =
      .ok (f.filled ((entries.map Prod.fst).reverse ++ seen) x,
        entries.filter fun e => e.1 ∉ f.names) := by
  induction entries generalizing seen with
  | nil => rfl
  | cons e rest ih =>
    obtain ⟨name, w⟩ := e
    obtain ⟨hname, hrest⟩ := List.nodup_cons.mp hdistinct
    have hmore := ih (name :: seen) hrest (fun e he => hmem e (by simp [he])) ?_
    · obtain ⟨v, hv, rfl⟩ | ⟨hother, hdepth⟩ := hmem (name, w) (by simp)
      · have hown : name ∈ f.names := (f.write_names x).subset (List.mem_map.mpr ⟨_, hv, rfl⟩)
        have hput := put_filled φ hs hnames hreturns hv (hnew (name, φ.apply v) (by simp))
        rw [Tree.ofFields, divide_own hput, hmore]
        simp [hown]
      · have hallows := hs.mono hdepth
        rw [Tree.ofFields, divide_other hother hallows, ← filled_cons hother, hmore]
        simp [Except.map, hother]
    · intro e he
      rw [List.mem_cons, not_or]
      refine ⟨?_, hnew e (by simp [he])⟩
      rintro rfl
      exact hname (List.mem_map.mpr ⟨e, he, rfl⟩)

theorem distinct_written {ρ σ : Type} {own : Fields ρ} {inner : Fields σ}
    (hnames : (own.names ++ inner.names).Nodup) (x : ρ) (y : σ) :
    Distinct (own.write x ++ inner.write y) := by
  rw [Distinct, List.map_append]
  exact ((own.write_names x).append (inner.write_names y)).nodup hnames

/-- Of the fields of two records only those of the inner one have other names than
the outer one's fields. -/
theorem filter_written {ρ σ : Type} {own : Fields ρ} {inner : Fields σ}
    (hapart : own.names.Disjoint inner.names) (x : ρ) (y : σ) (g : Json → Json) :
    (((own.write x ++ inner.write y).map fun e => (e.1, g e.2)).filter fun e => e.1 ∉ own.names) =
      (inner.write y).map fun e => (e.1, g e.2) := by
  have hown : ((own.write x).map fun e => (e.1, g e.2)).filter (fun e => e.1 ∉ own.names) = [] := by
    refine List.filter_eq_nil_iff.mpr fun e he => ?_
    obtain ⟨f, hf, rfl⟩ := List.mem_map.mp he
    simpa using (own.write_names x).subset (List.mem_map.mpr ⟨f, hf, rfl⟩)
  have hinner : ((inner.write y).map fun e => (e.1, g e.2)).filter (fun e => e.1 ∉ own.names) =
      (inner.write y).map fun e => (e.1, g e.2) := by
    refine List.filter_eq_self.mpr fun e he => ?_
    obtain ⟨f, hf, rfl⟩ := List.mem_map.mp he
    have hin : f.1 ∈ inner.names := (inner.write_names y).subset (List.mem_map.mpr ⟨f, hf, rfl⟩)
    simpa using fun hname => hapart hname hin
  rw [List.map_append, List.filter_append, hown, hinner, List.nil_append]

/-- The parts of a record are made out of the fields of two, and what is set apart
are the written fields of the other. -/
theorem divide_written {ρ σ : Type} {room : Nat} {own : Fields ρ} {inner : Fields σ} {x : ρ}
    {y : σ} (φ : Arrangement) {s : Source} (hs : s.Allows room)
    (hnames : (own.names ++ inner.names).Nodup) (hown : own.Returns room x)
    (hinner : inner.Returns room y) {entries : List (String × Json)}
    (hentries : entries.Perm ((own.write x ++ inner.write y).map fun e => (e.1, φ.apply e.2))) :
    ∃ slots others, Codec.divide s own (Tree.ofFields entries) own.blank = .ok (slots, others) ∧
      own.finish slots = .ok x ∧
      others.Perm ((inner.write y).map fun e => (e.1, φ.apply e.2)) := by
  obtain ⟨hownNames, -, hapart⟩ := List.nodup_append'.mp hnames
  have hnames' := names_perm hentries
  have hmem : ∀ e ∈ entries, (∃ v, (e.1, v) ∈ own.write x ∧ e.2 = φ.apply v) ∨
      (e.1 ∉ own.names ∧ e.2.depth ≤ room) := by
    intro e he
    obtain ⟨f, hf, rfl⟩ := List.mem_map.mp (hentries.mem_iff.mp he)
    obtain hf | hf := List.mem_append.mp hf
    · exact .inl ⟨f.2, hf, rfl⟩
    · have hin : f.1 ∈ inner.names := (inner.write_names y).subset (List.mem_map.mpr ⟨f, hf, rfl⟩)
      exact .inr ⟨fun hname => hapart hname hin,
        Nat.le_trans (φ.depth_le f.2) (inner.write_returns hinner f hf)⟩
  have hdivide := divide_filled φ hs hownNames hown entries []
    (hnames'.nodup_iff.mpr (distinct_written hnames x y)) hmem (by simp)
  rw [filled_nil] at hdivide
  refine ⟨_, _, hdivide, finish_filled hown fun e he => ?_, ?_⟩
  · rw [List.append_nil, List.mem_reverse, hnames'.mem_iff, List.map_append]
    exact List.mem_append_left _ (List.mem_map.mpr ⟨e, he, rfl⟩)
  · rw [← filter_written hapart x y φ.apply]
    exact hentries.filter _

end Fields

/-- A record with a flattened record in it is kept if the parts of both are and no
two of their fields have one name. -/
theorem Codec.keepsObject_flattened {α ρ σ : Type} {room : Nat} {name : String} {own : Fields ρ}
    {inner : Fields σ} {make : ρ × σ → α} {parts : α → ρ × σ}
    (hnames : (own.names ++ inner.names).Nodup) {x : α} (hmake : make (parts x) = x)
    (hown : own.Keeps room (parts x).1) (hinner : inner.Keeps room (parts x).2) :
    (Codec.flattened name own inner make parts).KeepsObject room x
      (own.write (parts x).1 ++ inner.write (parts x).2) where
  writes := rfl
  distinct := Fields.distinct_written hnames _ _
  kept f hf := by
    obtain hf | hf := List.mem_append.mp hf
    · exact own.write_keeps hown f hf
    · exact inner.write_keeps hinner f hf
  reads φ source hs entries hentries := by
    obtain ⟨s', henter, hs'⟩ := hs.enter
    obtain ⟨slots, others, hdivide, hfinish, hothers⟩ :=
      Fields.divide_written φ hs' hnames hown.returns hinner.returns hentries
    obtain ⟨slots', hread, hfinish'⟩ :=
      Fields.reads_written φ (s := .body) trivial hnames.of_append_right hinner.returns hothers
    simp only [Codec.flattened, henter]
    show Except.bind (Codec.divide s' own _ _) _ = _
    rw [hdivide]
    show Except.bind (own.finish slots) _ = _
    rw [hfinish]
    show Except.bind (inner.readFields .body _ _) _ = _
    rw [hread]
    show Except.bind (inner.finish slots') _ = _
    rw [hfinish']
    show Except.ok (make (parts x)) = _
    rw [hmake]

end ProxyPlan.Json
