/-
ProxyPlan.Proofs.WholeNumber — what whole numbers are read as in binary.

A binary number that is whole is written with its digits, a point and a zero,
since around it no other number of so few digits rounds to it
(`render_whole`). It is read as ten times the number over ten, and both are
rounded (`Binary64.reread`). Ten times the number need not be a number of the
format, and where it is not the quotient may come out beside the number. Where
it is, the quotient is exact: that asks for no more than 53 significant bits in
five times the number (`IsShortWhole`).
-/
import Mathlib.Data.List.TakeWhile
import ProxyPlan.Number.Shortest
import ProxyPlan.Proofs.Rounding
import ProxyPlan.Proofs.WrittenNumber

namespace ProxyPlan.Number

/-! ## Whole numbers -/

/-- The magnitude is a whole number. -/
def Binary64.IsWhole (x : Binary64) (n : Nat) : Prop := units x.rank = n * unitsPerOne

theorem rankOfNat_eq {r n : Nat} (h : units r = n * unitsPerOne) : rankOfNat n = r := by
  rw [rankOfNat, ← h, ← Nat.mul_one (units r), nearestRank_exact r Nat.one_pos]

/-- One is a power of two of units. -/
theorem exists_unitsPerOne : ∃ k, k = 1074 ∧ unitsPerOne = 2 ^ k := by
  obtain ⟨k, hk, hunits⟩ : ∃ k, k = 1074 ∧ unitsPerOne = Nat.pow 2 k := by
    unfold unitsPerOne
    exact ⟨_, rfl, Eq.refl _⟩
  exact ⟨k, hk, hunits.trans Nat.pow_eq⟩

theorem unitsPerOne_pos : 0 < unitsPerOne := by
  obtain ⟨k, -, hk⟩ := exists_unitsPerOne
  exact hk ▸ Nat.two_pow_pos k

/-- A significand of 53 bits with zeros behind it is a number of the format. -/
theorem exists_whole {m : Nat} (hm : m < 2 ^ 53) (s : Nat) :
    ∃ r, units r = m * 2 ^ s * unitsPerOne := by
  obtain ⟨k, -, hk⟩ := exists_unitsPerOne
  obtain ⟨r, hr⟩ := exists_units hm (s + k)
  exact ⟨r, by rw [hr, Nat.pow_add, ← Nat.mul_assoc, hk]⟩

theorem lt_rankCount {r n : Nat} (h : units r = n * unitsPerOne) (hn : n < 2 ^ 53) :
    r < rankCount := by
  have hlast : 2 ^ 53 * unitsPerOne < units rankCount := by decide +kernel
  refine units_strictMono.lt_iff_lt.mp (Nat.lt_trans ?_ hlast)
  rw [h]
  exact Nat.mul_lt_mul_of_pos_right hn unitsPerOne_pos

/-- The number nearest to an integer of 53 bits is that integer. -/
theorem Binary64.isWhole_ofInt {i : Int} (h : i.natAbs < 2 ^ 53) :
    (Binary64.ofInt i).IsWhole i.natAbs := by
  obtain ⟨r, hr⟩ := exists_whole h 0
  rw [Nat.pow_zero, Nat.mul_one] at hr
  have hofInt : Binary64.ofInt i = ⟨decide (i < 0), r, lt_rankCount hr h⟩ := by
    rw [Binary64.ofInt, rankOfNat_eq hr, Binary64.ofRank?, dif_pos (lt_rankCount hr h)]
    rfl
  rw [hofInt]
  exact hr

/-- The magnitude is a whole number below 2^53, and five times it has no more than
53 significant bits. -/
structure Binary64.IsShortWhole (x : Binary64) (n : Nat) : Prop where
  whole : x.IsWhole n
  lt : n < 2 ^ 53
  bits : ∃ m s, m < 2 ^ 53 ∧ 5 * n = m * 2 ^ s

/-- Small numbers have few bits. -/
theorem Binary64.IsWhole.isShortWhole {x : Binary64} {n : Nat} (h : x.IsWhole n)
    (hn : 5 * n < 2 ^ 53) : x.IsShortWhole n where
  whole := h
  lt := by omega
  bits := ⟨5 * n, 0, hn, by rw [Nat.pow_zero, Nat.mul_one]⟩

theorem Binary64.IsShortWhole.exists_tenfold {x : Binary64} {n : Nat} (h : x.IsShortWhole n) :
    ∃ r, units r = 10 * n * unitsPerOne := by
  obtain ⟨m, s, hm, hbits⟩ := h.bits
  obtain ⟨r, hr⟩ := exists_whole hm (s + 1)
  have htenfold : 10 * n = m * 2 ^ (s + 1) := by
    calc 10 * n = 2 * (5 * n) := by ring
      _ = m * 2 ^ (s + 1) := by rw [hbits]; ring
  exact ⟨r, by rw [hr, htenfold]⟩

/-! ## Over ten -/

theorem units_ten : units (rankOfNat 10) = 10 * unitsPerOne := by
  obtain ⟨r, hr⟩ := exists_whole (m := 5) (by decide) 1
  have hten : units r = 10 * unitsPerOne := by omega
  rw [rankOfNat_eq hten, hten]

/-- Ten times a whole number over ten is the number again, as long as ten times
it is a number of the format. -/
theorem overRank_ten {r a n : Nat} (h : units r = n * unitsPerOne)
    (ha : units a = 10 * n * unitsPerOne) :
    overRank (rankOfNat (10 * n)) (rankOfNat 10) = r := by
  have hquotient : units a * unitsPerOne = units r * (10 * unitsPerOne) := by rw [ha, h]; ring
  rw [overRank, units_ten, rankOfNat_eq ha, hquotient,
    nearestRank_exact r (Nat.mul_pos (by decide) unitsPerOne_pos)]

/-- Ten times a number of 53 bits over ten is never too large. -/
theorem overRank_lt {n : Nat} (hn : n < 2 ^ 53) :
    overRank (rankOfNat (10 * n)) (rankOfNat 10) < rankCount := by
  obtain ⟨k, hk, hone⟩ := exists_unitsPerOne
  have htenfold : units (rankOfNat (10 * n)) ≤ 2 ^ (53 + (k + 4)) := by
    have hbound : 10 * n * unitsPerOne < 2 ^ (53 + (k + 4)) * 1 := by
      calc 10 * n * unitsPerOne < 2 ^ 57 * unitsPerOne :=
            Nat.mul_lt_mul_of_pos_right (by omega) unitsPerOne_pos
        _ = 2 ^ (53 + (k + 4)) * 1 := by rw [hone]; ring
    rw [← units_first]
    exact units_strictMono.monotone (nearestRank_le Nat.one_pos hbound)
  have hrank : overRank (rankOfNat (10 * n)) (rankOfNat 10) ≤ (k + 4 + 2) * 2 ^ 52 := by
    refine nearestRank_le (units_ten ▸ Nat.mul_pos (by decide) unitsPerOne_pos) ?_
    rw [units_ten]
    calc units (rankOfNat (10 * n)) * unitsPerOne ≤ 2 ^ (53 + (k + 4)) * unitsPerOne :=
          Nat.mul_le_mul_right _ htenfold
      _ < 2 ^ (53 + (k + 4)) * (10 * unitsPerOne) := by
          refine Nat.mul_lt_mul_of_pos_left ?_ (Nat.two_pow_pos _)
          have hpos := unitsPerOne_pos
          omega
  simp only [rankCount, Nat.pow_eq]
  omega

/-- What a whole number is read as once it is written: ten times it over ten, both
rounded. -/
def Binary64.reread (x : Binary64) : Binary64 :=
  (Binary64.ofRank? x.negative
    (overRank (rankOfNat (10 * (units x.rank / unitsPerOne))) (rankOfNat 10))).getD x

theorem Binary64.IsWhole.ofRank?_eq {x : Binary64} {n : Nat} (h : x.IsWhole n)
    (hlt : n < 2 ^ 53) :
    Binary64.ofRank? x.negative (overRank (rankOfNat (10 * n)) (rankOfNat 10)) =
      some x.reread := by
  have hn : units x.rank / unitsPerOne = n := by rw [h, Nat.mul_div_cancel _ unitsPerOne_pos]
  simp only [Binary64.reread, hn, Binary64.ofRank?, dif_pos (overRank_lt hlt), Option.getD_some]

/-- A whole number of few bits is read as itself. -/
theorem Binary64.IsShortWhole.reread_eq {x : Binary64} {n : Nat} (h : x.IsShortWhole n) :
    x.reread = x := by
  obtain ⟨a, ha⟩ := h.exists_tenfold
  have hread := h.whole.ofRank?_eq h.lt
  rw [overRank_ten h.whole ha, Binary64.ofRank?, dif_pos x.rank_lt] at hread
  exact (Option.some.inj hread).symm

/-- A numeral with a zero after the point is read as ten times the whole number before
it over ten. -/
theorem value?_pointZero (negative : Bool) {n : Nat} (hlt : n < 2 ^ 53) {ds : List Nat}
    (hds : ofDigits ds = n) : (Numeral.mk negative ds [0] none).value? =
      (Binary64.ofRank? negative (overRank (rankOfNat (10 * n)) (rankOfNat 10))).map .real := by
  have hwhole : gather 0 ds = (n, 0) := by
    rw [gather_eq]
    · exact congrArg (·, 0) hds
    · show ofDigits ds ≤ significandLimit
      rw [hds, significandLimit, Nat.pow_eq]
      omega
  have hall : gather n [0] = (10 * n, 0) := by
    rw [gather, if_pos]
    · rfl
    · rw [significandLimit, Nat.pow_eq]
      omega
  have hscale : scale (10 * n) (((0 : Nat) : Int) - ((1 - 0 : Nat) : Int)) =
      overRank (rankOfNat (10 * n)) (rankOfNat 10) := by
    show shrink (rankOfNat (10 * n)) 1 = _
    rw [shrink, if_pos (by decide)]
    rfl
  simp only [Numeral.value?, hwhole, hall, List.isEmpty_cons, Bool.false_and, List.length_cons,
    List.length_nil, Nat.zero_add, binary?, hscale]
  rfl

/-! ## The shortest digits -/

/-- Half the distance to the next magnitude, for a whole number. -/
theorem shift_whole {r n : Nat} (h : units r = n * unitsPerOne) (hlt : n < 2 ^ 53) :
    2 * 2 ^ shift r < 4 * unitsPerOne := by
  have hsignificand : 2 ^ 52 * 2 ^ shift r ≤ units r ∨ shift r = 0 := by
    simp only [units, shift, significand, Nat.pow_eq]
    split
    · exact .inr rfl
    · exact .inl (Nat.mul_le_mul_right _ (Nat.le_add_right _ _))
  obtain hlarge | hzero := hsignificand
  · have hbound : n * unitsPerOne < 2 ^ 53 * unitsPerOne :=
      Nat.mul_lt_mul_of_pos_right hlt unitsPerOne_pos
    rw [h] at hlarge
    omega
  · have hpos := unitsPerOne_pos
    rw [hzero]
    omega

/-- The interval of a whole number holds this number, and no other whole number
comes near it; lengths are in quarter units. -/
theorem interval_whole {r n : Nat} (h : units r = n * unitsPerOne) (hn : 0 < n)
    (hlt : n < 2 ^ 53) :
    (interval r).low < n * (4 * unitsPerOne) ∧ n * (4 * unitsPerOne) < (interval r).high ∧
      (∀ w < n, w * (4 * unitsPerOne) < (interval r).low) ∧
      ∀ w, n < w → (interval r).high < w * (4 * unitsPerOne) := by
  have hunits : 4 * units r = n * (4 * unitsPerOne) := by rw [h]; ring
  have hpos := Nat.two_pow_pos (shift r)
  have hshift := shift_whole h hlt
  have hbelow : ∃ below, 0 < below ∧ below ≤ 2 * 2 ^ shift r ∧
      (interval r).low = n * (4 * unitsPerOne) - below := by
    refine ⟨_, ?_, ?_, by rw [interval, hunits]⟩ <;> simp only [Nat.pow_eq] <;> split <;> omega
  obtain ⟨below, hb, hbelow, hlow⟩ := hbelow
  have hhigh : (interval r).high = n * (4 * unitsPerOne) + 2 * 2 ^ shift r := by
    simp only [interval, hunits, Nat.pow_eq]
  -- two whole numbers are at least one apart
  have hapart : ∀ a b, a < b →
      a * (4 * unitsPerOne) + 4 * unitsPerOne ≤ b * (4 * unitsPerOne) := by
    intro a b hab
    calc a * (4 * unitsPerOne) + 4 * unitsPerOne = (a + 1) * (4 * unitsPerOne) := by ring
      _ ≤ b * (4 * unitsPerOne) := Nat.mul_le_mul_right _ hab
  have hzero := hapart 0 n hn
  refine ⟨by omega, by omega, ?_, ?_⟩
  · intro w hw
    have := hapart w n hw
    omega
  · intro w hw
    have := hapart n w hw
    omega

theorem exists_decimalScale : ∃ k, k = 400 ∧ decimalScale = 10 ^ k := by
  obtain ⟨k, hk, hscale⟩ : ∃ k, k = 400 ∧ decimalScale = Nat.pow 10 k := by
    unfold decimalScale
    exact ⟨_, rfl, Eq.refl _⟩
  exact ⟨k, hk, hscale.trans Nat.pow_eq⟩

theorem decimalScale_pos : 0 < decimalScale := by
  obtain ⟨k, -, hk⟩ := exists_decimalScale
  exact hk ▸ Nat.pow_pos (by decide)

/-- Of the whole numbers only this one rounds to its magnitude. -/
theorem holds_whole {r n : Nat} (h : units r = n * unitsPerOne) (hn : 0 < n) (hlt : n < 2 ^ 53)
    (w : Nat) :
    (interval r).holds (w * (4 * unitsPerOne) * decimalScale) = decide (w = n) := by
  obtain ⟨hlow, hhigh, hbefore, hafter⟩ := interval_whole h hn hlt
  have hle : ∀ a b, a * decimalScale ≤ b * decimalScale ↔ a ≤ b := fun a b =>
    Nat.mul_le_mul_right_iff decimalScale_pos
  have hlt' : ∀ a b, a * decimalScale < b * decimalScale ↔ a < b := fun a b =>
    Nat.mul_lt_mul_right decimalScale_pos
  simp only [Interval.holds, hle, hlt']
  obtain hw | rfl | hw := Nat.lt_trichotomy w n
  · have := hbefore w hw
    have hne : w ≠ n := Nat.ne_of_lt hw
    split <;> simp [hne] <;> omega
  · split <;> simp <;> omega
  · have := hafter w hw
    have hne : w ≠ n := Nat.ne_of_gt hw
    split <;> simp [hne] <;> omega

/-- A grid of whole numbers has a point for a whole number just if it is on the
grid. -/
theorem gridPoint?_whole {r n : Nat} (h : units r = n * unitsPerOne) (hn : 0 < n)
    (hlt : n < 2 ^ 53) (j : Nat) :
    gridPoint? r (decimalScale * 10 ^ j) =
      if n % 10 ^ j = 0 then some (n / 10 ^ j) else none := by
  have hpow : 0 < 10 ^ j := Nat.pow_pos (by decide)
  have hspacing : 0 < decimalScale * unitsPerOne := Nat.mul_pos decimalScale_pos unitsPerOne_pos
  have hlower : units r * decimalScale / (decimalScale * 10 ^ j * unitsPerOne) = n / 10 ^ j := by
    have hvalue : units r * decimalScale = n * (decimalScale * unitsPerOne) := by rw [h]; ring
    have hstep : decimalScale * 10 ^ j * unitsPerOne = 10 ^ j * (decimalScale * unitsPerOne) := by
      ring
    rw [hvalue, hstep, Nat.mul_div_mul_right _ _ hspacing]
  have hinside : ∀ w, (interval r).holds (4 * (decimalScale * 10 ^ j * unitsPerOne) * w) =
      decide (10 ^ j * w = n) := by
    intro w
    have hscaled : 4 * (decimalScale * 10 ^ j * unitsPerOne) * w =
        10 ^ j * w * (4 * unitsPerOne) * decimalScale := by ring
    rw [hscaled, holds_whole h hn hlt]
  have hnext : 10 ^ j * (n / 10 ^ j + 1) ≠ n := by
    have := Nat.lt_mul_div_succ n hpow
    omega
  simp only [gridPoint?, hlower, hinside, hnext, decide_false]
  have hdiv := Nat.div_add_mod n (10 ^ j)
  by_cases hmod : n % 10 ^ j = 0
  · have hpoint : 10 ^ j * (n / 10 ^ j) = n := by omega
    simp [hpoint, hmod]
  · have hpoint : 10 ^ j * (n / 10 ^ j) ≠ n := by omega
    simp [hpoint, hmod]

/-- Zeros at the end of the digits multiply by ten. -/
theorem decimal_mul_pow {n : Nat} (hn : 0 < n) (j : Nat) :
    Text.decimal (n * 10 ^ j) = Text.decimal n ++ List.replicate j '0' := by
  induction j with
  | zero => simp
  | succ j ih =>
    have hpos : 0 < n * 10 ^ j := Nat.mul_pos hn (Nat.pow_pos (by decide))
    have hstep : n * 10 ^ (j + 1) = 10 * (n * 10 ^ j) + 0 := by ring
    rw [hstep, Text.decimal, ← Nat.toDigits_append_toDigits (by decide) hpos (by decide)]
    show Text.decimal (n * 10 ^ j) ++ ['0'] = _
    rw [ih, List.append_assoc, List.replicate_succ']

theorem length_decimal_mul_pow {n : Nat} (hn : 0 < n) (j : Nat) :
    (Text.decimal (n * 10 ^ j)).length = (Text.decimal n).length + j := by
  simp [decimal_mul_pow hn]

theorem length_decimal_le {n : Nat} (hlt : n < 2 ^ 53) : (Text.decimal n).length ≤ 16 :=
  (Nat.length_toDigits_le_iff (by decide) (by decide)).mpr (Nat.lt_trans hlt (by decide))

/-- Whichever grid is the first with a point, its point has the digits of the
number, zeros at the end aside. -/
theorem searchGrid_whole {r n k : Nat} (h : units r = n * unitsPerOne) (hn : 0 < n)
    (hlt : n < 2 ^ 53) (hk : decimalScale = 10 ^ k) (room count : Nat)
    (hcount : count ≤ (Text.decimal n).length) (hroom : (Text.decimal n).length < count + room) :
    ∃ m j, n = m * 10 ^ j ∧
      searchGrid r ((Text.decimal n).length + k) room count = (m, (Text.decimal n).length - j) ∧
      j + count ≤ (Text.decimal n).length := by
  induction room generalizing count with
  | zero => omega
  | succ room ih =>
    obtain ⟨j, hj⟩ := Nat.exists_eq_add_of_le hcount
    have hstep : Nat.pow 10 ((Text.decimal n).length + k - count) = decimalScale * 10 ^ j := by
      have hplaces : (Text.decimal n).length + k - count = k + j := by omega
      rw [hplaces, Nat.pow_eq, Nat.pow_add, hk]
    simp only [searchGrid, hstep, gridPoint?_whole h hn hlt]
    by_cases hmod : n % 10 ^ j = 0
    · have hdigits : n = n / 10 ^ j * 10 ^ j := by
        have := Nat.div_add_mod n (10 ^ j)
        rw [Nat.mul_comm]
        omega
      refine ⟨n / 10 ^ j, j, hdigits, ?_, by omega⟩
      rw [if_pos hmod]
      simp only [Prod.mk.injEq, true_and]
      omega
    · -- the finest grid is the one of all whole numbers
      have hj0 : j ≠ 0 := by
        rintro rfl
        simp at hmod
        omega
      obtain ⟨m, i, hm, hsearch, hi⟩ := ih (count + 1) (by omega) (by omega)
      refine ⟨m, i, hm, ?_, by omega⟩
      rw [if_neg hmod]
      exact hsearch

/-- The shortest digits of a whole number are its own, zeros at the end aside. -/
theorem shortest_whole {r n : Nat} (h : units r = n * unitsPerOne) (hn : 0 < n)
    (hlt : n < 2 ^ 53) :
    ∃ m j, n = m * 10 ^ j ∧ shortest r = ⟨m, ((Text.decimal n).length : Int) - 1⟩ := by
  obtain ⟨k, hplaces, hk⟩ := exists_decimalScale
  have hvalue : units r * decimalScale / unitsPerOne = n * 10 ^ k := by
    have hproduct : units r * decimalScale = n * 10 ^ k * unitsPerOne := by rw [h, hk]; ring
    rw [hproduct, Nat.mul_div_cancel _ unitsPerOne_pos]
  have hsize : (Text.decimal (n * 10 ^ k)).length = (Text.decimal n).length + k :=
    length_decimal_mul_pow hn k
  have hlength := length_decimal_le hlt
  obtain ⟨m, j, hm, hsearch, hj⟩ := searchGrid_whole h hn hlt hk 17 1
    Nat.length_toDigits_pos (by omega)
  have hm0 : 0 < m := Nat.pos_of_ne_zero (by rintro rfl; omega)
  have hdigits : (Text.decimal n).length = (Text.decimal m).length + j := by
    conv_lhs => rw [hm]
    exact length_decimal_mul_pow hm0 j
  refine ⟨m, j, hm, ?_⟩
  simp only [shortest, hvalue, hsize, hsearch, Decimal.mk.injEq, true_and]
  omega

/-! ## The written form -/

theorem stripZeros_append (ds : List Char) (j : Nat) :
    stripZeros (ds ++ List.replicate j '0') = stripZeros ds := by
  simp [stripZeros]

/-- Zeros put back in place of those that were stripped. -/
theorem stripZeros_replicate (ds : List Char) :
    stripZeros ds ++ List.replicate (ds.length - (stripZeros ds).length) '0' = ds := by
  have hzeros : ds.reverse.takeWhile (· = '0') =
      List.replicate (ds.reverse.takeWhile (· = '0')).length '0' := by
    refine List.eq_replicate_iff.mpr ⟨rfl, fun c hc => ?_⟩
    simpa using List.mem_takeWhile_imp hc
  have hsplit : ds = stripZeros ds ++ (ds.reverse.takeWhile (· = '0')).reverse := by
    rw [stripZeros, ← List.reverse_append, List.takeWhile_append_dropWhile, List.reverse_reverse]
  have hlength := congrArg List.length hsplit
  rw [List.length_append, List.length_reverse] at hlength
  have hmissing : ds.length - (stripZeros ds).length =
      (ds.reverse.takeWhile (· = '0')).length := by
    omega
  rw [hmissing]
  conv_rhs => rw [hsplit, hzeros, List.reverse_replicate]

theorem pointed_stripZeros (ds : List Char) :
    pointed (stripZeros ds) ds.length = ds ++ ['.', '0'] := by
  have hlength : (stripZeros ds).length ≤ ds.length := by
    rw [stripZeros, List.length_reverse]
    exact Nat.le_trans (List.dropWhile_sublist _).length_le (by simp)
  rw [pointed, List.take_of_length_le hlength, List.drop_eq_nil_of_le hlength, stripZeros_replicate]
  rfl

/-- The digits of a whole number are laid out in full, with a zero after the
point. -/
theorem layout_whole {n m j : Nat} (hm : n = m * 10 ^ j) (hn : 0 < n) (hlt : n < 2 ^ 53) :
    documentLayout.render (stripZeros (Text.decimal m)) (((Text.decimal n).length : Int) - 1) =
      Text.decimal n ++ ['.', '0'] := by
  have hm0 : 0 < m := Nat.pos_of_ne_zero (by rintro rfl; omega)
  have hstrip : stripZeros (Text.decimal m) = stripZeros (Text.decimal n) := by
    rw [hm, decimal_mul_pow hm0, stripZeros_append]
  have hlength := length_decimal_le hlt
  have hpos : 0 < (Text.decimal n).length := Nat.length_toDigits_pos
  have hplaces : (((Text.decimal n).length : Int) - 1).toNat + 1 = (Text.decimal n).length := by
    omega
  have hplain : documentLayout.leastPlain ≤ ((Text.decimal n).length : Int) - 1 ∧
      ((Text.decimal n).length : Int) - 1 ≤ documentLayout.greatestPlain := by
    simp only [documentLayout]
    omega
  have hnotsmall : ¬ ((Text.decimal n).length : Int) - 1 < 0 := by omega
  unfold Layout.render
  rw [hstrip, if_pos hplain, if_neg hnotsmall, hplaces, pointed_stripZeros]

/-- A whole number is written as its sign, its digits, the point and a zero. -/
theorem render_whole {x : Binary64} {n : Nat} (h : x.IsWhole n) (hlt : n < 2 ^ 53) :
    x.render.toList = (if x.negative then ['-'] else []) ++ (Text.decimal n ++ ['.', '0']) := by
  have hbody : (if x.rank = 0 then ['0', '.', '0'] else
      documentLayout.render (stripZeros (Text.decimal (shortest x.rank).digits))
        (shortest x.rank).exponent) = Text.decimal n ++ ['.', '0'] := by
    obtain rfl | hn := Nat.eq_zero_or_pos n
    · have hzero : x.rank = 0 := by
        refine units_injective ?_
        rw [h, Nat.zero_mul, units_of_lt (by decide)]
      rw [if_pos hzero]
      rfl
    · have hrank : x.rank ≠ 0 := by
        intro hzero
        have hunits : 0 = n * unitsPerOne := by
          rw [← h, hzero, units_of_lt (by decide)]
        exact absurd hunits (Nat.ne_of_lt (Nat.mul_pos hn unitsPerOne_pos))
      obtain ⟨m, j, hm, hshortest⟩ := shortest_whole h hn hlt
      rw [if_neg hrank, hshortest, layout_whole hm hn hlt]
  simp only [Binary64.render, hbody, String.toList_ofList]
  cases x.negative <;> rfl

end ProxyPlan.Number

/-! ## Reading back -/

namespace ProxyPlan.Json.Scan

/-- The digits of a number, with or without a sign, a point and a zero. -/
theorem run_pointZero (negative : Bool) (n : Nat) (stack : List Frame) :
    ∃ ds, Number.ofDigits ds.reverse = n ∧
      run (.value stack)
          ((if negative then ['-'] else []) ++ (Text.decimal n ++ ['.', '0'])) =
        .numeral ⟨.fraction, negative, ds, [0], false, []⟩ stack := by
  -- a point and a zero go on from the digits whatever they are
  have hpoint : ∀ ds m, run (.numeral { wholeNumeral ds m with negative := negative } stack)
      ['.', '0'] = .numeral ⟨.fraction, negative, ds, [0], false, []⟩ stack := by
    intro ds m
    by_cases hm : m = 0 <;> simp [run_cons, step, NumeralScan.step, NumeralScan.afterWhole,
      wholeNumeral, hm, Text.digitValue?] <;> rfl
  cases negative with
  | false =>
    obtain ⟨ds, hds, hrun⟩ := run_decimal n stack
    refine ⟨ds, hds, ?_⟩
    rw [if_neg (by decide), List.nil_append, run_append, hrun]
    exact hpoint ds n
  | true =>
    have hsign : ∀ d < 10, step (.numeral .minus stack) (Nat.digitChar d) =
        .numeral (.firstDigit true d) stack := by
      intro d hd
      simp only [step, NumeralScan.step, NumeralScan.minus, Text.digitValue?_digitChar hd]
    obtain ⟨ds, hds, hrun⟩ := run_decimal_from hsign n
    refine ⟨ds, hds, ?_⟩
    rw [if_pos rfl, List.singleton_append, run_cons]
    show run (.numeral .minus stack) _ = _
    rw [run_append, hrun]
    exact hpoint ds n

theorem step_fraction {s : NumeralScan} (hs : s.place = .fraction) {c : Char} (h : endsNumeral c)
    (stack : List Frame) :
    step (.numeral s stack) c = step (deliver (.number s.value) stack) c := by
  obtain ⟨hdigit, -, he, hE⟩ := h
  have hstep : s.step c = .complete := by simp [NumeralScan.step, hs, hdigit, he, hE]
  rw [step_deliver]
  simp only [step, hstep]

end ProxyPlan.Json.Scan

namespace ProxyPlan.Number

open Json Json.Scan

/-- A whole number is read as ten times it over ten. -/
theorem Binary64.IsWhole.readsAs {x : Binary64} {n : Nat} (h : x.IsWhole n)
    (hlt : n < 2 ^ 53) : ReadsAs (.real x) (.real x.reread) where
  opens := by
    have hwritten : writeNumber (.real x) =
        (if x.negative then ['-'] else []) ++ (Text.decimal n ++ ['.', '0']) :=
      render_whole h hlt
    rw [hwritten]
    cases x.negative with
    | true => exact ⟨_, _, rfl, by decide⟩
    | false =>
      cases hcs : Text.decimal n with
      | nil => exact absurd hcs Nat.toDigits_ne_nil
      | cons c cs =>
        refine ⟨c, cs ++ ['.', '0'], rfl, opensValue_digit ?_⟩
        exact Nat.isDigit_of_mem_toDigits (by decide) (by decide) (hcs ▸ List.mem_cons_self)
  run stack c rest hc := by
    have hwritten : writeNumber (.real x) =
        (if x.negative then ['-'] else []) ++ (Text.decimal n ++ ['.', '0']) :=
      render_whole h hlt
    obtain ⟨ds, hds, hrun⟩ := run_pointZero x.negative n stack
    have hvalue : (NumeralScan.mk .fraction x.negative ds [0] false []).value =
        .ok (.real x.reread) := by
      have hnumeral := value?_pointZero x.negative hlt hds
      rw [h.ofRank?_eq hlt, Option.map_some] at hnumeral
      simp only [NumeralScan.value, NumeralScan.numeral, List.reverse_singleton,
        List.isEmpty_nil, if_true, hnumeral]
    rw [hwritten, run_append, hrun, run_cons, step_fraction rfl hc, hvalue, run_cons]

end ProxyPlan.Number
