/-
ProxyPlan.Number.Shortest — the fewest decimal digits that read back.

Between the midpoints to its two neighbours every real number rounds to a
given magnitude. Among the decimal grids, coarsest first, the first that has a
point in that interval gives the digits, and of two points on it the nearer
one. All comparisons are between natural numbers: lengths are measured in
quarter units and scaled by a fixed power of ten.
-/
import ProxyPlan.Number.Numeral
import ProxyPlan.Text.Digit

namespace ProxyPlan.Number

/-- The power of ten that makes every positive magnitude larger than one with
digits to spare. -/
def decimalScale : Nat := Nat.pow 10 400

/-- Decimal digits (as one number) and the power of ten of the first of them. -/
structure Decimal where
  digits : Nat
  exponent : Int

/-- The interval of reals that round to a rank, in quarter units, and whether
its ends belong to it. -/
structure Interval where
  low : Nat
  high : Nat
  closed : Bool

/-- The reals that round to the magnitude of a rank. -/
def interval (rank : Nat) : Interval :=
  let half := 2 * Nat.pow 2 (shift rank)
  let below :=
    if significand rank = Nat.pow 2 52 ∧ 0 < shift rank then Nat.pow 2 (shift rank) else half
  ⟨4 * units rank - below, 4 * units rank + half, rank % 2 = 0⟩

/-- A length in scaled quarter units lies in the interval. -/
def Interval.holds (i : Interval) (scaled : Nat) : Bool :=
  if i.closed then
    i.low * decimalScale ≤ scaled && scaled ≤ i.high * decimalScale
  else
    i.low * decimalScale < scaled && scaled < i.high * decimalScale

/-- The point of one grid that stands for the rank, if the grid has one in the
interval: `step` is the grid's spacing at the fixed scale. -/
def gridPoint? (rank step : Nat) : Option Nat :=
  let value := units rank * decimalScale
  let spacing := step * unitsPerOne
  let lower := value / spacing
  let inside := fun n => (interval rank).holds (4 * spacing * n)
  let below := value - lower * spacing
  let above := (lower + 1) * spacing - value
  match inside lower, inside (lower + 1) with
  | true, true =>
    if below < above ∨ (below = above ∧ lower % 2 = 0) then some lower else some (lower + 1)
  | true, false => some lower
  | false, true => some (lower + 1)
  | false, false => none

/-- Try the grids with `count`, `count + 1`, … digits; `room` more are left. -/
def searchGrid (rank size : Nat) : (room count : Nat) → Nat × Nat
  | 0, count => (units rank * decimalScale / (Nat.pow 10 (size - count) * unitsPerOne), count)
  | room + 1, count =>
    match gridPoint? rank (Nat.pow 10 (size - count)) with
    | some n => (n, count)
    | none => searchGrid rank size room (count + 1)

/-- The shortest digits of a positive magnitude. -/
def shortest (rank : Nat) : Decimal :=
  let size := (Text.decimal (units rank * decimalScale / unitsPerOne)).length
  let (n, count) := searchGrid rank size 17 1
  let extra := (Text.decimal n).length - count
  ⟨n, (size : Int) + extra - 401⟩

/-! ## Layout -/

/-- How the digits are laid out: plain between two exponents, else with an
exponent of at least `exponentWidth` digits after its sign. -/
structure Layout where
  leastPlain : Int
  greatestPlain : Int
  exponentWidth : Nat

/-- Plain from 0.00001 up to sixteen digits before the point. -/
def documentLayout : Layout := ⟨-5, 15, 2⟩

/-- Digits without the zeros at the end. -/
def stripZeros (ds : List Char) : List Char :=
  (ds.reverse.dropWhile (· = '0')).reverse

/-- Digits with the point after `places` of them; one digit at least follows it. -/
def pointed (ds : List Char) (places : Nat) : List Char :=
  let whole := ds.take places ++ List.replicate (places - ds.length) '0'
  let rest := ds.drop places
  whole ++ '.' :: (if rest.isEmpty then ['0'] else rest)

/-- An exponent with its sign. -/
def Layout.exponent (l : Layout) (e : Int) : List Char :=
  let ds := Text.decimal e.natAbs
  (if e < 0 then ['e', '-'] else ['e', '+']) ++ List.replicate (l.exponentWidth - ds.length) '0' ++ ds

/-- Lay out digits whose first one has the given power of ten. -/
def Layout.render (l : Layout) (ds : List Char) (e : Int) : List Char :=
  if l.leastPlain ≤ e ∧ e ≤ l.greatestPlain then
    if e < 0 then
      ['0', '.'] ++ List.replicate ((-e).toNat - 1) '0' ++ ds
    else pointed ds (e.toNat + 1)
  else
    match ds with
    | [d] => d :: l.exponent e
    | d :: rest => d :: '.' :: rest ++ l.exponent e
    | [] => []

/-- The written form of a finite number. -/
def Binary64.render (x : Binary64) : String :=
  let body :=
    if x.rank = 0 then ['0', '.', '0']
    else
      let d := shortest x.rank
      documentLayout.render (stripZeros (Text.decimal d.digits)) d.exponent
  String.ofList (if x.negative then '-' :: body else body)

/-- The written form of a number. -/
def render : Number → String
  | .integer i => toString i
  | .real x => x.render

end ProxyPlan.Number
