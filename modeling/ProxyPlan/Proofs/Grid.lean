/-
ProxyPlan.Proofs.Grid — laid out nodes stand on a grid, each in a cell of its own.

Laying out goes over the nodes once and keeps one count for each column. What carries every
statement here is what the counts are: at each node they are the numbers of nodes before it in
its column, whatever kinds these are of (`getElem?_placeAfter`), and a node raises the count of
its own column only (`getD_fill`). So a column is filled from its top without a gap, and of two
nodes in one column the later one stands lower.

Cells are told apart by their exact coordinates, which are whole numbers. Positions are binary
numbers, and those are exact below 2^53; no list that can be held reaches so far down.
-/
import ProxyPlan.Proofs.Placement
import ProxyPlan.Proofs.WholeNumber

namespace ProxyPlan.Topology

/-! ## The counts -/

/-- How many of the nodes stand in a column. -/
def inColumn (nodes : List Node) (column : Nat) : Nat :=
  nodes.countP fun n => n.kind.layer == column

theorem layer_lt (k : Kind) : k.layer < 4 := by cases k <;> decide

theorem length_fill (filled : List Nat) (k : Kind) : (fill filled k).length = filled.length :=
  List.length_modify _ _ _

/-- A node raises the count of its own column and no other. -/
theorem getD_fill {filled : List Nat} (h : filled.length = 4) (k : Kind) (column : Nat) :
    (fill filled k).getD column 0 = filled.getD column 0 + if k.layer = column then 1 else 0 := by
  rw [fill, List.getD_eq_getElem?_getD, List.getD_eq_getElem?_getD, List.getElem?_modify]
  by_cases hk : k.layer = column
  · have hlt : column < filled.length := by rw [h, ← hk]; exact layer_lt k
    simp [hk, List.getElem?_eq_getElem hlt]
  · simp [hk]

theorem inColumn_cons (n : Node) (rest : List Node) (column : Nat) :
    inColumn (n :: rest) column =
      (if n.kind.layer = column then 1 else 0) + inColumn rest column := by
  simp [inColumn, List.countP_cons, Nat.add_comm]

/-- A node is put below those that its column held before and those that have been put there
since. -/
theorem getElem?_placeAfter {filled : List Nat} (h : filled.length = 4) (nodes : List Node)
    (i : Nat) :
    (placeAfter filled nodes)[i]? = nodes[i]?.map fun n => { n with
      position := cell n.kind.layer
        (filled.getD n.kind.layer 0 + inColumn (nodes.take i) n.kind.layer) } := by
  induction nodes generalizing filled i with
  | nil => rfl
  | cons first rest ih =>
    cases i with
    | zero => simp [placeAfter, place, inColumn]
    | succ i =>
      rw [placeAfter, List.getElem?_cons_succ, List.getElem?_cons_succ,
        ih ((length_fill filled _).trans h) i]
      simp only [getD_fill h, List.take_succ_cons, inColumn_cons, Nat.add_assoc]

theorem kind_moved (n : Node) (p : Position) : Node.kind { n with position := p } = n.kind := rfl

theorem kind_place (filled : List Nat) (n : Node) : (place filled n).kind = n.kind :=
  kind_moved n _

theorem position_place (filled : List Nat) (n : Node) :
    (place filled n).position = cell n.kind.layer (filled.getD n.kind.layer 0) := by
  rw [place]

theorem length_placeAfter (filled : List Nat) (nodes : List Node) :
    (placeAfter filled nodes).length = nodes.length := by
  induction nodes generalizing filled with
  | nil => rfl
  | cons n rest ih => rw [placeAfter, List.length_cons, List.length_cons, ih]

/-- A column is filled on from the first row that is free. -/
theorem column_placeAfter {filled : List Nat} (h : filled.length = 4) (nodes : List Node)
    (column : Nat) :
    ((placeAfter filled nodes).filter fun n => n.kind.layer == column).map Placed.position =
      (List.range' (filled.getD column 0) (inColumn nodes column)).map (cell column) := by
  induction nodes generalizing filled with
  | nil => rfl
  | cons n rest ih =>
    rw [placeAfter, List.filter_cons, kind_place, inColumn_cons]
    have hrest := ih ((length_fill filled n.kind).trans h)
    rw [getD_fill h] at hrest
    by_cases hcolumn : n.kind.layer = column
    · subst hcolumn
      simp only [beq_self_eq_true, if_true, List.map_cons] at hrest ⊢
      rw [hrest, position_place, Nat.add_comm 1, List.range'_succ, List.map_cons]
    · simpa [hcolumn] using hrest

/-! ## Cells -/

/-- The exact coordinates of an entry of a list: columns are 300 apart and rows 120, and its row
is the number of entries before it in the column of its kind. -/
def exactPlace (nodes : List Node) (i : Fin nodes.length) : Int × Int :=
  let column := (nodes.get i).kind.layer
  (300 * (column : Int), 120 * (inColumn (nodes.take i) column : Int))

theorem cell_eq (column row : Nat) :
    cell column row = ⟨.ofInt (300 * column), .ofInt (120 * row)⟩ := by
  have hx : ((column * columnWidth : Nat) : Int) = 300 * column := by rw [columnWidth]; omega
  have hy : ((row * rowHeight : Nat) : Int) = 120 * row := by rw [rowHeight]; omega
  rw [cell, hx, hy]

/-- Of two entries in one column the later one has more entries before it. -/
theorem inColumn_take_lt {nodes : List Node} {i j : Nat} (hj : j < nodes.length) (hij : i < j)
    {column : Nat} (hi : nodes[i].kind.layer = column) :
    inColumn (nodes.take i) column < inColumn (nodes.take j) column := by
  have hprefix : nodes.take (i + 1) <+: nodes.take j := List.take_prefix_take_left hij
  calc inColumn (nodes.take i) column
      < inColumn (nodes.take (i + 1)) column := by
        rw [List.take_succ_eq_append_getElem (by omega), inColumn, inColumn, List.countP_append]
        simp [hi]
    _ ≤ inColumn (nodes.take j) column := hprefix.sublist.countP_le

theorem exactPlace_injective (nodes : List Node) : Function.Injective (exactPlace nodes) := by
  intro i j h
  obtain ⟨hx, hy⟩ := Prod.mk.inj h
  simp only [List.get_eq_getElem] at hx hy
  have hcolumn : nodes[i.val].kind.layer = nodes[j.val].kind.layer := by omega
  rw [hcolumn] at hy
  obtain hlt | heq | hgt := Nat.lt_trichotomy i j
  · have := inColumn_take_lt j.isLt hlt hcolumn
    omega
  · exact Fin.ext heq
  · have := inColumn_take_lt i.isLt hgt rfl
    omega

/-- Whole numbers from zero below 2^53 are told apart in binary. -/
theorem ofInt_inj {a b : Int} (ha : 0 ≤ a ∧ a < 2 ^ 53) (hb : 0 ≤ b ∧ b < 2 ^ 53)
    (h : Number.Binary64.ofInt a = Number.Binary64.ofInt b) : a = b := by
  have hwhole := Number.Binary64.isWhole_ofInt (i := a) (by omega)
  rw [h] at hwhole
  have hunits := hwhole.symm.trans (Number.Binary64.isWhole_ofInt (i := b) (by omega))
  have := Nat.eq_of_mul_eq_mul_right Number.unitsPerOne_pos hunits
  omega

/-- The coordinates are small as long as the list is not too long. -/
theorem exactPlace_bounds {nodes : List Node} (h : 120 * nodes.length ≤ 2 ^ 53)
    (i : Fin nodes.length) :
    (0 ≤ (exactPlace nodes i).1 ∧ (exactPlace nodes i).1 < 2 ^ 53) ∧
      0 ≤ (exactPlace nodes i).2 ∧ (exactPlace nodes i).2 < 2 ^ 53 := by
  have hcolumn := layer_lt nodes[i.val].kind
  have hrow : inColumn (nodes.take i) nodes[i.val].kind.layer ≤ i := by
    calc inColumn (nodes.take i) nodes[i.val].kind.layer
        ≤ (nodes.take i).length := List.countP_le_length
      _ ≤ i := List.length_take_le _ _
  have hi := i.isLt
  simp only [exactPlace, List.get_eq_getElem]
  omega

/-! ## Laying out -/

theorem position_layout (nodes : List Node) (i : Fin nodes.length) :
    (layout nodes)[i]?.map Placed.position =
      some ⟨.ofInt (exactPlace nodes i).1, .ofInt (exactPlace nodes i).2⟩ := by
  have hzero : ([0, 0, 0, 0] : List Nat).getD nodes[i.val].kind.layer 0 = 0 := by
    cases nodes[i.val].kind <;> rfl
  have hplaced := getElem?_placeAfter (rfl : [0, 0, 0, 0].length = 4) nodes i
  rw [List.getElem?_eq_getElem i.isLt, Option.map_some, hzero, Nat.zero_add, cell_eq] at hplaced
  rw [layout, Fin.getElem?_fin, hplaced, Option.map_some]
  rfl

/-- Only the kinds of nodes count, so nodes that have been placed are placed there again. -/
theorem placeAfter_unplaced (filled : List Nat) (nodes : List Node) :
    placeAfter filled (nodes.map Node.unplaced) = placeAfter filled nodes := by
  induction nodes generalizing filled with
  | nil => rfl
  | cons n rest ih =>
    rw [List.map_cons, placeAfter, placeAfter]
    exact congrArg₂ List.cons rfl (ih _)

theorem layout_layout (nodes : List Node) : layout (layout nodes) = layout nodes := by
  calc layout (layout nodes)
      = layout ((layout nodes).map Node.unplaced) := (placeAfter_unplaced _ _).symm
    _ = layout (nodes.map Node.unplaced) := by rw [unplaced_layout]
    _ = layout nodes := placeAfter_unplaced _ _

/-- In a list that is not too long the exact coordinates are those of the positions. -/
theorem positions_nodup {nodes : List Node} (h : 120 * nodes.length ≤ 2 ^ 53) :
    ((layout nodes).map Placed.position).Nodup := by
  have hlength : ((layout nodes).map Placed.position).length = nodes.length := by
    rw [List.length_map, layout, length_placeAfter]
  refine List.nodup_iff_getElem?_ne_getElem?.mpr fun i j hij hj heq => ?_
  rw [hlength] at hj
  have hi : i < nodes.length := by omega
  rw [List.getElem?_map, List.getElem?_map] at heq
  obtain ⟨hx, hy⟩ := Position.mk.inj (Option.some.inj
    (((position_layout nodes ⟨i, hi⟩).symm.trans heq).trans (position_layout nodes ⟨j, hj⟩)))
  obtain ⟨hxi, hyi⟩ := exactPlace_bounds h ⟨i, hi⟩
  obtain ⟨hxj, hyj⟩ := exactPlace_bounds h ⟨j, hj⟩
  have hsame : exactPlace nodes ⟨i, hi⟩ = exactPlace nodes ⟨j, hj⟩ :=
    Prod.ext (ofInt_inj hxi hxj hx) (ofInt_inj hyi hyj hy)
  have hval : i = j := congrArg Fin.val (exactPlace_injective nodes hsame)
  omega

/-- Laying out moves nodes and does nothing else. Each entry gets the binary numbers of its exact
coordinates, which no two entries share; so do the positions themselves not, in any list that is
not longer than 2^53 / 120. A column is filled from row zero on without a gap, in the order of the
list, and laying out again changes nothing. -/
theorem layout_grid (nodes : List Node) :
    (layout nodes).map Node.unplaced = nodes.map Node.unplaced ∧
      (∀ i : Fin nodes.length, (layout nodes)[i]?.map Placed.position =
        some ⟨.ofInt (exactPlace nodes i).1, .ofInt (exactPlace nodes i).2⟩) ∧
      Function.Injective (exactPlace nodes) ∧
      (∀ column, ((layout nodes).filter fun n => n.kind.layer == column).map Placed.position =
        (List.range (inColumn nodes column)).map fun row =>
          ⟨.ofInt (300 * column), .ofInt (120 * row)⟩) ∧
      layout (layout nodes) = layout nodes ∧
      (120 * nodes.length ≤ 2 ^ 53 → ((layout nodes).map Placed.position).Nodup) := by
  refine ⟨unplaced_layout nodes, position_layout nodes, exactPlace_injective nodes, ?columns,
    layout_layout nodes, positions_nodup⟩
  case columns =>
    intro column
    have hzero : [0, 0, 0, 0].getD column 0 = 0 := by
      match column with
      | 0 | 1 | 2 | 3 | _ + 4 => rfl
    rw [layout, column_placeAfter rfl, hzero, ← List.range_eq_range']
    exact List.map_congr_left fun row _ => cell_eq column row

/-- Nodes of five kinds, two of them with one identity, that somebody has put in one place. -/
def pile : List Node :=
  [⟨"a", .origin, .device ⟨"", .socks⟩, none⟩,
    ⟨"b", .origin, .terminal ⟨"direct", .freedom⟩, none⟩,
    ⟨"c", .origin, .inbound ⟨"in", .socks, "", 1080, none, [], none, none⟩, none⟩,
    ⟨"d", .origin, .balancer ⟨"spread", .random, []⟩, none⟩,
    ⟨"b", .origin, .proxy ⟨"out", .http, "192.0.2.1", 80, none, none, none, none⟩, none⟩]

theorem layout_grid_pile :
    120 * pile.length ≤ 2 ^ 53 ∧ ((layout pile).map Placed.position).Nodup ∧
      (layout pile)[4]?.map Placed.position = some ⟨.ofInt 900, .ofInt 120⟩ := by
  have hshort : 120 * pile.length ≤ 2 ^ 53 := by decide
  obtain ⟨-, hplaces, -, -, -, hnodup⟩ := layout_grid pile
  exact ⟨hshort, hnodup hshort, hplaces ⟨4, by decide⟩⟩

end ProxyPlan.Topology
