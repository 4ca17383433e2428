/-
ProxyPlan.Proofs.CodecLaw — what a codec writes it reads back.

A written value is read back in more than one form: straight from the text that
was made of it, where its fields stand as they were written, and out of a
settled value, where they stand in order of their names. Neither form changes
what a reader finds under a name, so the law is stated for every `Arrangement`,
of which leaving a value alone and settling it are the two that occur.

`Codec.Keeps` says of one value that it is read back from every arrangement and
from every source that still allows its depth, and that its numbers are not
changed on the way through a text; without the latter, as of a value that has
been read already, it is `Codec.Returns`. Both are about a value and not about
the codec as a whole, since free-form values are only kept when they are
settled. Each way of building a codec has one lemma; for a record the invariant
is which of its slots are filled after some of the written fields have been
read (`Fields.filled`), in whatever order they came. A record may also lie
flattened in another or stand behind the name of its kind, where its fields are
first set apart from the others: those that read an object keep it from its
fields (`Codec.KeepsObject`), so setting them apart is all that is left to show.
-/
import ProxyPlan.Json.Tagged
import ProxyPlan.Proofs.Settle
import ProxyPlan.Proofs.WrittenText

namespace ProxyPlan.Json

/-! ## Readings that succeed -/

theorem exists_of_bind_eq_ok {ε α β : Type} {x : Except ε α} {f : α → Except ε β} {b : β}
    (h : x.bind f = .ok b) : ∃ a, x = .ok a ∧ f a = .ok b := by
  cases x with
  | error e => cases h
  | ok a => exact ⟨a, rfl, h⟩

theorem exists_of_map_eq_ok {ε α β : Type} {x : Except ε α} {f : α → β} {b : β}
    (h : x.map f = .ok b) : ∃ a, x = .ok a ∧ f a = b := by
  cases x with
  | error e => cases h
  | ok a => exact ⟨a, rfl, Except.ok.inj h⟩

/-! ## Depth -/

mutual

/-- How deep containers nest in a value. -/
def depth : Json → Nat
  | .list items => depthOfItems items + 1
  | .object fields => depthOfFields fields + 1
  | .null | .bool _ | .number _ | .text _ => 0
termination_by structural v => v

/-- How deep containers nest in items. -/
def depthOfItems : List Json → Nat
  | [] => 0
  | v :: rest => max (depth v) (depthOfItems rest)
termination_by structural items => items

/-- How deep containers nest in fields. -/
def depthOfFields : List (String × Json) → Nat
  | [] => 0
  | (_, v) :: rest => max (depth v) (depthOfFields rest)
termination_by structural fields => fields

end

theorem depthOfItems_le {items : List Json} {d : Nat} :
    depthOfItems items ≤ d ↔ ∀ v ∈ items, v.depth ≤ d := by
  induction items with
  | nil => simp [depthOfItems]
  | cons v rest ih => simp [depthOfItems, ih]

theorem depthOfFields_le {fields : List (String × Json)} {d : Nat} :
    depthOfFields fields ≤ d ↔ ∀ f ∈ fields, f.2.depth ≤ d := by
  induction fields with
  | nil => simp [depthOfFields]
  | cons f rest ih =>
    obtain ⟨name, v⟩ := f
    simp [depthOfFields, ih]

theorem depth_lt_list {v : Json} {items : List Json} (h : v ∈ items) :
    v.depth < (Json.list items).depth :=
  Nat.lt_succ_of_le (depthOfItems_le.mp (Nat.le_refl _) v h)

theorem depth_lt_object {name : String} {v : Json} {fields : List (String × Json)}
    (h : (name, v) ∈ fields) : v.depth < (Json.object fields).depth :=
  Nat.lt_succ_of_le (depthOfFields_le.mp (Nat.le_refl _) (name, v) h)

/-- The source still lets containers nest this deep. -/
def Source.Allows : Source → Nat → Prop
  | .text room, d => d < room
  | .body, _ => True
  | .value, _ => True

theorem Source.Allows.mono {s : Source} {d d' : Nat} (h : s.Allows d') (hle : d ≤ d') :
    s.Allows d := by
  cases s with
  | text room => exact Nat.lt_of_le_of_lt hle h
  | body => trivial
  | value => trivial

theorem Source.Allows.enter {s : Source} {d : Nat} (h : s.Allows (d + 1)) :
    ∃ s', s.enter = .ok s' ∧ s'.Allows d := by
  cases s with
  | text room =>
    rcases room with _ | _ | room
    · exact absurd h (by simp [Source.Allows])
    · exact absurd h (by simp [Source.Allows])
    · exact ⟨_, rfl, Nat.lt_of_succ_lt_succ h⟩
  | body => exact ⟨_, rfl, trivial⟩
  | value => exact ⟨_, rfl, trivial⟩

/-! ## Reading a value whole -/

namespace Tree

mutual

/-- A value at hand is read whole as what it is. -/
theorem whole_ofJson (v : Json) (s : Source) (h : s.Allows v.depth) :
    (ofJson v).whole s = .ok v := by
  match v with
  | .null => rfl
  | .bool b => rfl
  | .number n => rfl
  | .text t => rfl
  | .list items =>
    obtain ⟨s', henter, h'⟩ := Source.Allows.enter h
    rw [ofJson, whole, henter]
    show Except.bind (wholeItems (ofItems items) s') _ = _
    rw [wholeItems_ofItems items s' h']
    rfl
  | .object fields =>
    obtain ⟨s', henter, h'⟩ := Source.Allows.enter h
    rw [ofJson, whole, henter]
    show Except.bind (wholeFields (ofFields fields) s') _ = _
    rw [wholeFields_ofFields fields s' h']
    rfl
termination_by structural v

theorem wholeItems_ofItems (items : List Json) (s : Source) (h : s.Allows (depthOfItems items)) :
    wholeItems (ofItems items) s = .ok items := by
  match items with
  | [] => rfl
  | v :: rest =>
    rw [ofItems, wholeItems, whole_ofJson v s (h.mono (Nat.le_max_left _ _)),
      wholeItems_ofItems rest s (h.mono (Nat.le_max_right _ _))]
    rfl
termination_by structural items

theorem wholeFields_ofFields (fields : List (String × Json)) (s : Source)
    (h : s.Allows (depthOfFields fields)) : wholeFields (ofFields fields) s = .ok fields := by
  match fields with
  | [] => rfl
  | (name, v) :: rest =>
    rw [ofFields, wholeFields, whole_ofJson v s (h.mono (Nat.le_max_left _ _)),
      wholeFields_ofFields rest s (h.mono (Nat.le_max_right _ _))]
    rfl
termination_by structural fields

end

end Tree

/-! ## Arrangements -/

/-- A way to move the fields of objects about that loses none. -/
structure Arrangement where
  apply : Json → Json
  null : apply .null = .null
  bool : ∀ b, apply (.bool b) = .bool b
  number : ∀ n, apply (.number n) = .number n
  text : ∀ s, apply (.text s) = .text s
  list : ∀ items, apply (.list items) = .list (items.map apply)
  object : ∀ fields, ∃ fields', apply (.object fields) = .object fields' ∧
    (Distinct fields → fields'.Perm (fields.map fun f => (f.1, apply f.2)))
  depth_le : ∀ v, (apply v).depth ≤ v.depth
  settle : ∀ v, (apply v).settle = v.settle

namespace Arrangement

/-- Leave a value as it is written. -/
def written : Arrangement where
  apply v := v
  null := rfl
  bool _ := rfl
  number _ := rfl
  text _ := rfl
  list items := by rw [List.map_id']
  object fields := ⟨fields, rfl, fun _ => by rw [List.map_id']⟩
  depth_le _ := Nat.le_refl _
  settle _ := rfl

theorem depthOfFields_insertField (name : String) (v : Json) (fields : List (String × Json)) :
    depthOfFields (insertField name v fields) ≤ max v.depth (depthOfFields fields) := by
  rw [depthOfFields_le]
  intro f hf
  obtain rfl | hf := mem_insertField hf
  · exact Nat.le_max_left _ _
  · exact Nat.le_trans (depthOfFields_le.mp (Nat.le_refl _) f hf) (Nat.le_max_right _ _)

mutual

theorem depth_settle (v : Json) : v.settle.depth ≤ v.depth := by
  match v with
  | .null => exact Nat.le_refl _
  | .bool b => exact Nat.le_refl _
  | .number n => exact Nat.le_refl _
  | .text t => exact Nat.le_refl _
  | .list items => exact Nat.succ_le_succ (depth_settleItems items)
  | .object fields => exact Nat.succ_le_succ (depth_settleFields fields)
termination_by structural v

theorem depth_settleItems (items : List Json) :
    depthOfItems (settleItems items) ≤ depthOfItems items := by
  match items with
  | [] => exact Nat.le_refl _
  | v :: rest =>
    have hv := depth_settle v
    have hrest := depth_settleItems rest
    simp only [settleItems, depthOfItems]
    omega
termination_by structural items

theorem depth_settleFields (fields : List (String × Json)) :
    depthOfFields (settleFields fields) ≤ depthOfFields fields := by
  match fields with
  | [] => exact Nat.le_refl _
  | (name, v) :: rest =>
    have hv := depth_settle v
    have hrest := depth_settleFields rest
    have hinsert := depthOfFields_insertField name v.settle (settleFields rest)
    simp only [settleFields, depthOfFields]
    omega
termination_by structural fields

end

/-- Settle a value. -/
def settled : Arrangement where
  apply := Json.settle
  null := rfl
  bool _ := rfl
  number _ := rfl
  text _ := rfl
  list items := by rw [Json.settle, settleItems_eq_map]
  object _ := ⟨_, rfl, settleFields_perm⟩
  depth_le := depth_settle
  settle := settled_settle

/-- Only nothing is arranged to nothing. -/
theorem ofJson_apply_ne_null (φ : Arrangement) {v : Json} (h : v.isNull = false) :
    ∀ t, Tree.ofJson (φ.apply v) = t → t ≠ .null ∧ ∀ b r s, t ≠ .broken b r s := by
  rintro t rfl
  cases v with
  | null => cases h
  | bool b => simp [φ.bool, Tree.ofJson]
  | number n => simp [φ.number, Tree.ofJson]
  | text s => simp [φ.text, Tree.ofJson]
  | list items => simp [φ.list, Tree.ofJson]
  | object fields =>
    obtain ⟨fields', happly, -⟩ := φ.object fields
    simp [happly, Tree.ofJson]

end Arrangement

/-- Rearranged fields have the names they had. -/
theorem names_perm {fields entries : List (String × Json)} {g : Json → Json}
    (h : entries.Perm (fields.map fun f => (f.1, g f.2))) :
    (entries.map Prod.fst).Perm (fields.map Prod.fst) := by
  simpa [Function.comp_def] using h.map Prod.fst

/-! ## Free-form values -/

/-- The value is in order, its numbers read back, and it is no deeper than
`room`. -/
structure Fits (room : Nat) (v : Json) : Prop where
  depth : v.depth ≤ room
  plain : v.Plain
  settled : Settled v

theorem Fits.mono {room room' : Nat} {v : Json} (h : v.Fits room) (hle : room ≤ room') :
    v.Fits room' :=
  ⟨Nat.le_trans h.depth hle, h.plain, h.settled⟩

theorem plain_nil {v : Json} (h : v.numbers = []) : v.Plain := by
  simp [Plain, h]

/-- Values whose numbers are natural and not too large. -/
theorem plain_naturals {v : Json} (ns : List Nat)
    (hnumbers : v.numbers = ns.map fun n => .integer n) (h : ∀ n ∈ ns, n < 2 ^ 64) :
    v.Plain := by
  intro m hm
  rw [hnumbers] at hm
  obtain ⟨n, hn, rfl⟩ := List.mem_map.mp hm
  exact Number.readsBack_nat (h n hn)

theorem plain_nat {n : Nat} (h : n < 2 ^ 64) : (Json.nat n).Plain :=
  plain_naturals [n] rfl (List.forall_mem_singleton.mpr h)

theorem numbersOfItems_eq (items : List Json) :
    numbersOfItems items = items.flatMap numbers := by
  induction items with
  | nil => rfl
  | cons v rest ih => rw [numbersOfItems, ih, List.flatMap_cons]

theorem numbersOfFields_eq (fields : List (String × Json)) :
    numbersOfFields fields = fields.flatMap fun f => f.2.numbers := by
  induction fields with
  | nil => rfl
  | cons f rest ih =>
    obtain ⟨name, v⟩ := f
    rw [numbersOfFields, ih, List.flatMap_cons]

theorem fits_text (room : Nat) (s : String) : (Json.text s).Fits room :=
  ⟨Nat.zero_le _, plain_nil rfl, rfl⟩

theorem fits_bool (room : Nat) (b : Bool) : (Json.bool b).Fits room :=
  ⟨Nat.zero_le _, plain_nil rfl, rfl⟩

theorem fits_nat (room : Nat) {n : Nat} (h : n < 2 ^ 64) : (Json.nat n).Fits room :=
  ⟨Nat.zero_le _, plain_nat h, rfl⟩

theorem fits_list {room : Nat} {items : List Json} (h : ∀ v ∈ items, v.Fits room) :
    (Json.list items).Fits (room + 1) where
  depth := Nat.succ_le_succ (depthOfItems_le.mpr fun v hv => (h v hv).depth)
  plain := by
    intro n hn
    simp only [numbers, numbersOfItems_eq, List.mem_flatMap] at hn
    obtain ⟨v, hv, hn⟩ := hn
    exact (h v hv).plain n hn
  settled := settled_list fun v hv => (h v hv).settled

theorem fits_object {room : Nat} {fields : List (String × Json)} (hordered : Ordered fields)
    (h : ∀ f ∈ fields, f.2.Fits room) : (Json.object fields).Fits (room + 1) where
  depth := Nat.succ_le_succ (depthOfFields_le.mpr fun f hf => (h f hf).depth)
  plain := by
    intro n hn
    simp only [numbers, numbersOfFields_eq, List.mem_flatMap] at hn
    obtain ⟨f, hf, hn⟩ := hn
    exact (h f hf).plain n hn
  settled := settled_object hordered fun f hf => (h f hf).settled

/-! ## The law -/

/-- What the codec writes of the value it reads back, from every arrangement of
it and every source in which `room` containers may nest. -/
structure Codec.Keeps {α : Type} (c : Codec α) (room : Nat) (x : α) : Prop where
  depth : (c.write x).depth ≤ room
  plain : (c.write x).Plain
  reads : ∀ (φ : Arrangement) (s : Source), s.Allows room →
    c.read s (.ofJson (φ.apply (c.write x))) = .ok x

/-- What the codec writes of the value it reads as this value, from every arrangement of it
and every source in which `room` containers may nest. -/
structure Codec.Returns {α : Type} (c : Codec α) (room : Nat) (x : α) : Prop where
  depth : (c.write x).depth ≤ room
  reads : ∀ (φ : Arrangement) (s : Source), s.Allows room →
    c.read s (.ofJson (φ.apply (c.write x))) = .ok x

/-- What the codec writes is never nothing. -/
def Codec.Present {α : Type} (c : Codec α) : Prop := ∀ x, (c.write x).isNull = false

namespace Codec

variable {α : Type} {c : Codec α}

theorem Keeps.mono {room room' : Nat} {x : α} (h : c.Keeps room x) (hle : room ≤ room') :
    c.Keeps room' x :=
  ⟨Nat.le_trans h.depth hle, h.plain, fun φ s hs => h.reads φ s (hs.mono hle)⟩

theorem Returns.mono {room room' : Nat} {x : α} (h : c.Returns room x) (hle : room ≤ room') :
    c.Returns room' x :=
  ⟨Nat.le_trans h.depth hle, fun φ s hs => h.reads φ s (hs.mono hle)⟩

theorem Keeps.returns {room : Nat} {x : α} (h : c.Keeps room x) : c.Returns room x :=
  ⟨h.depth, h.reads⟩

theorem Returns.keeps {room : Nat} {x : α} (h : c.Returns room x) (hplain : (c.write x).Plain) :
    c.Keeps room x :=
  ⟨h.depth, hplain, h.reads⟩

/-- A written file is read back. -/
theorem Keeps.readText {room : Nat} {x : α} (h : c.Keeps room x) (hroom : room < depthLimit) :
    c.readText ((c.write x).toLines ++ "\n") = .ok x := by
  rw [readText_file c h.plain]
  exact h.reads .written .start hroom

/-- A text of either layout is read as the value that is read of it; a number alone has to be
followed by something. -/
theorem Returns.readText_readsAs {room : Nat} {x y : α} (h : c.Returns room y)
    (hreads : (c.write x).ReadsAs (c.write y)) (hroom : room < depthLimit)
    (hnumber : ∀ n, c.write x ≠ .number n) :
    c.readText (c.write x).toText = .ok y ∧ c.readText (c.write x).toLines = .ok y := by
  rw [readText_toText c hreads hnumber, readText_toLines c hreads hnumber]
  exact ⟨h.reads .written .start hroom, h.reads .written .start hroom⟩

/-- A settled value is read back. -/
theorem Returns.readValue {room : Nat} {x : α} (h : c.Returns room x) :
    c.readValue (c.write x).settle = .ok x :=
  h.reads .settled .value trivial

theorem Keeps.readValue {room : Nat} {x : α} (h : c.Keeps room x) :
    c.readValue (c.write x).settle = .ok x :=
  h.returns.readValue

/-! ## Plain values, options and lists -/

theorem keeps_text (room : Nat) (s : String) : text.Keeps room s where
  depth := Nat.zero_le _
  plain := plain_nil rfl
  reads φ source _ := by rw [text, φ.text]; rfl

theorem keeps_bool (room : Nat) (b : Bool) : bool.Keeps room b where
  depth := Nat.zero_le _
  plain := plain_nil rfl
  reads φ source _ := by rw [bool, φ.bool]; rfl

theorem readBelow_nat {n limit : Nat} (h : n < limit) (wanted : String) :
    readBelow limit wanted (.number (.ok (.integer n))) = .ok n := by
  have hfits : 0 ≤ (n : Int) ∧ (n : Int) < limit := by omega
  rw [readBelow, if_pos hfits]
  rfl

theorem keeps_word16 (room : Nat) (n : UInt16) : word16.Keeps room n where
  depth := Nat.zero_le _
  plain := plain_nat (Nat.lt_trans n.toNat_lt (by decide))
  reads φ source _ := by
    simp only [word16, Json.nat, φ.number, Tree.ofJson]
    rw [readBelow_nat n.toNat_lt]
    simp [Except.map]

theorem keeps_word32 (room : Nat) (n : UInt32) : word32.Keeps room n where
  depth := Nat.zero_le _
  plain := plain_nat (Nat.lt_trans n.toNat_lt (by decide))
  reads φ source _ := by
    simp only [word32, Json.nat, φ.number, Tree.ofJson]
    rw [readBelow_nat n.toNat_lt]
    simp [Except.map]

theorem returns_real (room : Nat) (x : Number.Binary64) : real.Returns room x where
  depth := Nat.zero_le _
  reads φ source _ := by rw [real, φ.number]; rfl

/-- A name is kept if it is the name of what it is written for. -/
theorem keeps_naming {κ : Type} {names : Naming κ} (room : Nat) {k : κ}
    (h : names.find? (names.name k) = some k) : names.codec.Keeps room k where
  depth := Nat.zero_le _
  plain := plain_nil rfl
  reads φ source _ := by
    simp only [Naming.codec, φ.text, Tree.ofJson]
    show names.find (names.name k) = _
    rw [Naming.find, h]

/-- A part is kept where it is found in the whole. -/
theorem Keeps.part {β : Type} {into : α → β} {out : β → Option α} {room : Nat} {x : α}
    (h : c.Keeps room x) (hout : out (into x) = some x) :
    (c.part into out).Keeps room (into x) := by
  have hwrite : (c.part into out).write (into x) = c.write x := by
    simp only [Codec.part, hout]
  refine ⟨hwrite ▸ h.depth, hwrite ▸ h.plain, fun φ source hs => ?_⟩
  rw [hwrite]
  show (c.read source _).map into = _
  rw [h.reads φ source hs]
  rfl

/-- A free-form value is settled when it is read. -/
theorem read_anything {s : Source} {v : Json} (h : s.Allows v.depth) :
    anything.read s (.ofJson v) = .ok v.settle := by
  simp only [anything, Tree.settled, Tree.whole_ofJson v s h, Except.map]

/-- A free-form value is kept if it is settled. -/
theorem keeps_anything {room : Nat} {v : Json} (h : v.Fits room) : anything.Keeps room v where
  depth := h.depth
  plain := h.plain
  reads φ source hs := by
    show anything.read source (.ofJson (φ.apply v)) = _
    rw [read_anything (hs.mono (Nat.le_trans (φ.depth_le v) h.depth)), φ.settle, h.settled]

theorem Keeps.option {room : Nat} {x : α} (h : c.Keeps room x)
    (hpresent : (c.write x).isNull = false) : (option c).Keeps room (some x) where
  depth := h.depth
  plain := h.plain
  reads φ source hs := by
    have hread := h.reads φ source hs
    obtain ⟨hnull, hbroken⟩ := φ.ofJson_apply_ne_null hpresent _ rfl
    simp only [Codec.option]
    split
    case h_1 ht => exact absurd ht hnull
    case h_2 ht => exact absurd ht (hbroken _ _ _)
    case h_3 => rw [hread]; rfl

theorem Returns.list {room : Nat} {xs : List α} (h : ∀ x ∈ xs, c.Returns room x) :
    (list c).Returns (room + 1) xs where
  depth := by
    refine Nat.succ_le_succ (depthOfItems_le.mpr fun v hv => ?_)
    obtain ⟨x, hx, rfl⟩ := List.mem_map.mp hv
    exact (h x hx).depth
  reads φ source hs := by
    obtain ⟨s', henter, hs'⟩ := hs.enter
    have hall : c.readAll s' (Tree.ofItems ((xs.map c.write).map φ.apply)) = .ok xs := by
      clear henter hs
      induction xs with
      | nil => rfl
      | cons x rest ih =>
        rw [List.map_cons, List.map_cons, Tree.ofItems, readAll, (h x (by simp)).reads φ s' hs',
          ih fun y hy => h y (by simp [hy])]
        rfl
    simp only [Codec.list, φ.list, Tree.ofJson, henter]
    show Except.bind (c.readAll s' _) _ = _
    rw [hall]
    rfl

theorem Keeps.list {room : Nat} {xs : List α} (h : ∀ x ∈ xs, c.Keeps room x) :
    (list c).Keeps (room + 1) xs := by
  refine (Returns.list fun x hx => (h x hx).returns).keeps ?_
  intro n hn
  simp only [Codec.list, numbers, numbersOfItems_eq, List.mem_flatMap, List.mem_map] at hn
  obtain ⟨v, ⟨x, hx, rfl⟩, hn⟩ := hn
  exact (h x hx).plain n hn

end Codec

/-! ## Fields -/

namespace Fields

/-- The parts of a record are kept; what is left out is what absence means. -/
def Keeps (room : Nat) : {ρ : Type} → Fields ρ → ρ → Prop
  | _, .done, _ => True
  | _, .field _ codec absent omits rest, (x, xs) =>
    (if omits x then absent = some x else codec.Keeps room x) ∧ rest.Keeps room xs

/-- The parts of a record are returned; what is left out is what absence means. -/
def Returns (room : Nat) : {ρ : Type} → Fields ρ → ρ → Prop
  | _, .done, _ => True
  | _, .field _ codec absent omits rest, (x, xs) =>
    (if omits x then absent = some x else codec.Returns room x) ∧ rest.Returns room xs

theorem Keeps.returns {ρ : Type} {room : Nat} {f : Fields ρ} {x : ρ} (h : f.Keeps room x) :
    f.Returns room x := by
  induction f with
  | done => trivial
  | field name codec absent omits rest ih =>
    obtain ⟨hy, hys⟩ := h
    refine ⟨?_, ih hys⟩
    split
    case isTrue homits => rwa [if_pos homits] at hy
    case isFalse homits =>
      rw [if_neg homits] at hy
      exact hy.returns

section Describing

variable {α ρ : Type} {room : Nat} {name : String} {codec : Codec α} {rest : Fields ρ} {xs : ρ}

theorem Keeps.required {x : α} (hx : codec.Keeps room x) (h : rest.Keeps room xs) :
    (required name codec rest).Keeps room (x, xs) := ⟨hx, h⟩

theorem Keeps.defaulting {absent x : α} (hx : codec.Keeps room x) (h : rest.Keeps room xs) :
    (defaulting name codec absent rest).Keeps room (x, xs) := ⟨hx, h⟩

theorem Returns.required {x : α} (hx : codec.Returns room x) (h : rest.Returns room xs) :
    (required name codec rest).Returns room (x, xs) := ⟨hx, h⟩

theorem Returns.defaulting {absent x : α} (hx : codec.Returns room x) (h : rest.Returns room xs) :
    (defaulting name codec absent rest).Returns room (x, xs) := ⟨hx, h⟩

theorem Keeps.optional {x : Option α} (hpresent : codec.Present)
    (hx : ∀ y, x = some y → codec.Keeps room y) (h : rest.Keeps room xs) :
    (optional name codec rest).Keeps room (x, xs) := by
  cases x with
  | none => exact ⟨rfl, h⟩
  | some y => exact ⟨(hx y rfl).option (hpresent y), h⟩

theorem Keeps.items {ys : List α} (hys : ∀ y ∈ ys, codec.Keeps room y)
    (h : rest.Keeps (room + 1) xs) : (items name codec rest).Keeps (room + 1) (ys, xs) := by
  cases ys with
  | nil => exact ⟨rfl, h⟩
  | cons y ys => exact ⟨Codec.Keeps.list hys, h⟩

end Describing

/-! ## What is written -/

theorem write_names {ρ : Type} (f : Fields ρ) (x : ρ) :
    ((f.write x).map Prod.fst).Sublist f.names := by
  induction f with
  | done => exact .refl _
  | field name codec absent omits rest ih =>
    obtain ⟨y, ys⟩ := x
    simp only [write]
    split
    · exact (ih ys).cons name
    · exact (ih ys).cons_cons name

theorem write_distinct {ρ : Type} {f : Fields ρ} (h : f.names.Nodup) (x : ρ) :
    Distinct (f.write x) :=
  (f.write_names x).nodup h

theorem write_returns {ρ : Type} {room : Nat} {f : Fields ρ} {x : ρ} (h : f.Returns room x) :
    ∀ field ∈ f.write x, field.2.depth ≤ room := by
  induction f with
  | done => simp [write]
  | field name codec absent omits rest ih =>
    obtain ⟨y, ys⟩ := x
    obtain ⟨hy, hys⟩ := h
    simp only [write]
    split
    case isTrue => exact ih hys
    case isFalse homits =>
      rw [if_neg homits] at hy
      exact List.forall_mem_cons.mpr ⟨hy.depth, ih hys⟩

theorem write_keeps {ρ : Type} {room : Nat} {f : Fields ρ} {x : ρ} (h : f.Keeps room x) :
    ∀ field ∈ f.write x, field.2.depth ≤ room ∧ field.2.Plain := by
  induction f with
  | done => simp [write]
  | field name codec absent omits rest ih =>
    obtain ⟨y, ys⟩ := x
    obtain ⟨hy, hys⟩ := h
    simp only [write]
    split
    case isTrue => exact ih hys
    case isFalse homits =>
      rw [if_neg homits] at hy
      exact List.forall_mem_cons.mpr ⟨⟨hy.depth, hy.plain⟩, ih hys⟩

/-! ## Reading what is written -/

/-- The slots of a record some of whose fields have been read. -/
def filled : {ρ : Type} → (f : Fields ρ) → (seen : List String) → ρ → f.Slots
  | _, .done, _, _ => ()
  | _, .field name _ _ _ rest, seen, (x, xs) =>
    (if name ∈ seen then some x else none, rest.filled seen xs)

theorem filled_nil {ρ : Type} (f : Fields ρ) (x : ρ) : f.filled [] x = f.blank := by
  induction f with
  | done => rfl
  | field name codec absent omits rest ih =>
    obtain ⟨y, ys⟩ := x
    rw [filled, blank, ih]
    rfl

theorem filled_cons {ρ : Type} {f : Fields ρ} {name : String} (h : name ∉ f.names)
    (seen : List String) (x : ρ) : f.filled (name :: seen) x = f.filled seen x := by
  induction f with
  | done => rfl
  | field other codec absent omits rest ih =>
    obtain ⟨y, ys⟩ := x
    simp only [names, List.mem_cons, not_or] at h
    simp only [filled, ih h.2, List.mem_cons, Ne.symm h.1, false_or]
    rfl

/-- A written field is read into its slot. -/
theorem put_filled {ρ : Type} {room : Nat} {f : Fields ρ} {x : ρ} (φ : Arrangement) {s : Source}
    (hs : s.Allows room) (hnames : f.names.Nodup) (hreturns : f.Returns room x) {name : String}
    {v : Json} (hmem : (name, v) ∈ f.write x) {seen : List String} (hnew : name ∉ seen) :
    f.put s name (.ofJson (φ.apply v)) (f.filled seen x) =
      .ok (some (f.filled (name :: seen) x)) := by
  induction f with
  | done => simp [write] at hmem
  | field other codec absent omits rest ih =>
    obtain ⟨y, ys⟩ := x
    obtain ⟨hy, hys⟩ := hreturns
    obtain ⟨hother, hrest⟩ := List.nodup_cons.mp hnames
    simp only [write] at hmem
    by_cases hname : name = other
    · subst hname
      have hnot : (name, v) ∉ rest.write ys := fun hin =>
        hother ((rest.write_names ys).subset (List.mem_map.mpr ⟨_, hin, rfl⟩))
      split at hmem
      · exact absurd hmem hnot
      · rename_i homits
        rw [if_neg homits] at hy
        obtain h | h := List.mem_cons.mp hmem
        · obtain rfl : v = codec.write y := (Prod.mk.inj h).2
          simp [put, filled, hnew, hy.reads φ s hs, filled_cons hother, Except.map]
        · exact absurd h hnot
    · have hin : (name, v) ∈ rest.write ys := by
        split at hmem
        · exact hmem
        · exact (List.mem_cons.mp hmem).resolve_left fun h => hname (Prod.mk.inj h).1
      simp [put, filled, hname, Ne.symm hname, ih hrest hys hin, Except.map]
      rfl

/-- Written fields are read in whatever order they come. -/
theorem readFields_filled {ρ : Type} {room : Nat} {f : Fields ρ} {x : ρ} (φ : Arrangement)
    {s : Source} (hs : s.Allows room) (hnames : f.names.Nodup) (hreturns : f.Returns room x)
    (entries : List (String × Json)) (seen : List String) (hdistinct : Distinct entries)
    (hmem : ∀ e ∈ entries, ∃ v, (e.1, v) ∈ f.write x ∧ e.2 = φ.apply v)
    (hnew : ∀ e ∈ entries, e.1 ∉ seen) :
    f.readFields s (Tree.ofFields entries) (f.filled seen x) =
      .ok (f.filled ((entries.map Prod.fst).reverse ++ seen) x) := by
  induction entries generalizing seen with
  | nil => rfl
  | cons e rest ih =>
    obtain ⟨name, w⟩ := e
    obtain ⟨hname, hrest⟩ := List.nodup_cons.mp hdistinct
    obtain ⟨v, hv, rfl⟩ := hmem (name, w) (by simp)
    have hput := put_filled φ hs hnames hreturns hv (hnew (name, φ.apply v) (by simp))
    have hmore := ih (name :: seen) hrest (fun e he => hmem e (by simp [he])) ?_
    · rw [Tree.ofFields, readFields]
      show Except.bind (f.put s name _ _) _ = _
      rw [hput]
      show f.readFields s (Tree.ofFields rest) (f.filled (name :: seen) x) = _
      rw [hmore]
      simp
    · intro e he
      rw [List.mem_cons, not_or]
      refine ⟨?_, hnew e (by simp [he])⟩
      rintro rfl
      exact hname (List.mem_map.mpr ⟨e, he, rfl⟩)

/-- Once all that is written has been read, the parts are there. -/
theorem finish_filled {ρ : Type} {room : Nat} {f : Fields ρ} {x : ρ} (hreturns : f.Returns room x)
    {seen : List String} (hseen : ∀ e ∈ f.write x, e.1 ∈ seen) :
    f.finish (f.filled seen x) = .ok x := by
  induction f with
  | done => rfl
  | field name codec absent omits rest ih =>
    obtain ⟨y, ys⟩ := x
    obtain ⟨hy, hys⟩ := hreturns
    have hrest : rest.finish (rest.filled seen ys) = .ok ys := by
      refine ih hys fun e he => hseen e ?_
      simp only [write]
      split
      · exact he
      · exact List.mem_cons_of_mem _ he
    by_cases hname : name ∈ seen
    · simp only [finish, filled, hname, if_true, hrest]
      rfl
    · have homits : omits y = true := by
        by_contra hnot
        exact hname (hseen (name, codec.write y) (by simp [write, hnot]))
      rw [if_pos homits] at hy
      simp only [finish, filled, hname, if_false, hy, hrest]
      rfl

/-- The parts of a record are made out of its written fields, whatever the order
of these. -/
theorem reads_written {ρ : Type} {room : Nat} {f : Fields ρ} {x : ρ} (φ : Arrangement)
    {s : Source} (hs : s.Allows room) (hnames : f.names.Nodup) (hreturns : f.Returns room x)
    {entries : List (String × Json)}
    (hentries : entries.Perm ((f.write x).map fun e => (e.1, φ.apply e.2))) :
    ∃ slots, f.readFields s (Tree.ofFields entries) f.blank = .ok slots ∧
      f.finish slots = .ok x := by
  have hdistinct := f.write_distinct hnames x
  have hnames' := names_perm hentries
  have hmem : ∀ e ∈ entries, ∃ v, (e.1, v) ∈ f.write x ∧ e.2 = φ.apply v := by
    intro e he
    obtain ⟨written, hwritten, rfl⟩ := List.mem_map.mp (hentries.mem_iff.mp he)
    exact ⟨written.2, hwritten, rfl⟩
  have hread := readFields_filled φ hs hnames hreturns entries []
    (hnames'.nodup_iff.mpr hdistinct) hmem (by simp)
  rw [filled_nil] at hread
  refine ⟨_, hread, finish_filled hreturns fun e he => ?_⟩
  rw [List.append_nil, List.mem_reverse, hnames'.mem_iff]
  exact List.mem_map.mpr ⟨e, he, rfl⟩

end Fields

/-! ## Objects

A value that is written as an object may also be read after its fields have been
mixed with others and picked out again, so of such a value more is said: it is
read from its fields in any order.
-/

/-- What the codec writes of the value is an object of these fields, and the value
is read back from them in whatever order they come. -/
structure Codec.KeepsObject {α : Type} (c : Codec α) (room : Nat) (x : α)
    (fields : List (String × Json)) : Prop where
  writes : c.write x = .object fields
  distinct : Distinct fields
  kept : ∀ f ∈ fields, f.2.depth ≤ room ∧ f.2.Plain
  reads : ∀ (φ : Arrangement) (s : Source), s.Allows (room + 1) →
    ∀ entries, entries.Perm (fields.map fun f => (f.1, φ.apply f.2)) →
      c.read s (.object (Tree.ofFields entries) .closed) = .ok x

/-- What the codec writes of the value is an object of these fields, and the value is read
from them in whatever order they come. -/
structure Codec.ReturnsObject {α : Type} (c : Codec α) (room : Nat) (x : α)
    (fields : List (String × Json)) : Prop where
  writes : c.write x = .object fields
  distinct : Distinct fields
  depth : ∀ f ∈ fields, f.2.depth ≤ room
  reads : ∀ (φ : Arrangement) (s : Source), s.Allows (room + 1) →
    ∀ entries, entries.Perm (fields.map fun f => (f.1, φ.apply f.2)) →
      c.read s (.object (Tree.ofFields entries) .closed) = .ok x

namespace Codec

theorem ReturnsObject.returns {α : Type} {c : Codec α} {room : Nat} {x : α}
    {fields : List (String × Json)} (h : c.ReturnsObject room x fields) :
    c.Returns (room + 1) x where
  depth := by
    rw [h.writes]
    exact Nat.succ_le_succ (depthOfFields_le.mpr h.depth)
  reads φ source hs := by
    obtain ⟨entries, happly, hperm⟩ := φ.object fields
    rw [h.writes, happly]
    exact h.reads φ source hs entries (hperm h.distinct)

theorem KeepsObject.returnsObject {α : Type} {c : Codec α} {room : Nat} {x : α}
    {fields : List (String × Json)} (h : c.KeepsObject room x fields) :
    c.ReturnsObject room x fields :=
  ⟨h.writes, h.distinct, fun f hf => (h.kept f hf).1, h.reads⟩

theorem KeepsObject.keeps {α : Type} {c : Codec α} {room : Nat} {x : α}
    {fields : List (String × Json)} (h : c.KeepsObject room x fields) :
    c.Keeps (room + 1) x := by
  refine h.returnsObject.returns.keeps ?_
  intro n hn
  simp only [h.writes, numbers, numbersOfFields_eq, List.mem_flatMap] at hn
  obtain ⟨f, hf, hn⟩ := hn
  exact (h.kept f hf).2 n hn

/-! ## Records -/

/-- A record is read from an object by reading its fields. -/
theorem read_record {α ρ : Type} {name : String} {fields : Fields ρ} {make : ρ → α} {parts : α → ρ}
    {s s' : Source} (henter : s.enter = .ok s') (entries : List (String × Json)) :
    (record name fields make parts).read s (.ofJson (.object entries)) =
      (fields.readFields s' (Tree.ofFields entries) fields.blank).bind fun slots =>
        (fields.finish slots).map make := by
  show Except.bind s.enter _ = _
  rw [henter]
  show Except.bind (fields.readFields s' (Tree.ofFields entries) fields.blank) _ = _
  refine congrArg _ (funext fun slots => ?_)
  show Except.bind (fields.finish slots) _ = _
  cases fields.finish slots <;> rfl

/-- A record whose parts are returned is read from its fields, provided no two of them
have one name. -/
theorem returnsObject_record {α ρ : Type} {room : Nat} {name : String} {fields : Fields ρ}
    {make : ρ → α} {parts : α → ρ} (hnames : fields.names.Nodup) {x : α}
    (hmake : make (parts x) = x) (hreturns : fields.Returns room (parts x)) :
    (record name fields make parts).ReturnsObject room x (fields.write (parts x)) where
  writes := rfl
  distinct := fields.write_distinct hnames (parts x)
  depth := fields.write_returns hreturns
  reads φ source hs entries hentries := by
    obtain ⟨s', henter, hs'⟩ := hs.enter
    obtain ⟨slots, hread, hfinish⟩ := Fields.reads_written φ hs' hnames hreturns hentries
    refine (read_record henter entries).trans ?_
    rw [hread]
    show (fields.finish slots).map make = _
    rw [hfinish]
    show Except.ok (make (parts x)) = _
    rw [hmake]

/-- A record whose parts are kept is read back from its fields, provided no two of
them have one name. -/
theorem keepsObject_record {α ρ : Type} {room : Nat} {name : String} {fields : Fields ρ}
    {make : ρ → α} {parts : α → ρ} (hnames : fields.names.Nodup) {x : α}
    (hmake : make (parts x) = x) (hkeeps : fields.Keeps room (parts x)) :
    (record name fields make parts).KeepsObject room x (fields.write (parts x)) where
  writes := rfl
  distinct := fields.write_distinct hnames (parts x)
  kept := fields.write_keeps hkeeps
  reads := (returnsObject_record hnames hmake hkeeps.returns).reads

/-- A record whose parts are kept is kept, provided no two fields have one
name. -/
theorem keeps_record {α ρ : Type} {room : Nat} {name : String} {fields : Fields ρ} {make : ρ → α}
    {parts : α → ρ} (hnames : fields.names.Nodup) {x : α} (hmake : make (parts x) = x)
    (hkeeps : fields.Keeps room (parts x)) :
    (record name fields make parts).Keeps (room + 1) x :=
  (keepsObject_record hnames hmake hkeeps).keeps

theorem present_text : text.Present := fun _ => rfl

theorem present_bool : bool.Present := fun _ => rfl

theorem present_word16 : word16.Present := fun _ => rfl

theorem present_word32 : word32.Present := fun _ => rfl

theorem present_list {α : Type} (c : Codec α) : (list c).Present := fun _ => rfl

theorem present_record {α ρ : Type} (name : String) (fields : Fields ρ) (make : ρ → α)
    (parts : α → ρ) : (record name fields make parts).Present := fun _ => rfl

end Codec

end ProxyPlan.Json
