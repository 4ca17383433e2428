/-
ProxyPlan.Number.Binary64 — the finite numbers of the 64-bit binary format,
with exact arithmetic.

The magnitudes of the format, put in increasing order, are numbered from zero;
a number is its sign and the rank of its magnitude. Every magnitude is a whole
number of units of 2^-1074, so a rank stands for the natural number `units`,
rounding a ratio to the nearest magnitude is a division of natural numbers,
and the carry from one power of two into the next is the step from one rank to
the following one. No floating-point operation of the machine is involved.
-/
namespace ProxyPlan.Number

/-- How many finite magnitudes there are. -/
def rankCount : Nat := 2047 * Nat.pow 2 52

/-- A finite number: its sign (zero has one too) and the rank of its magnitude. -/
structure Binary64 where
  negative : Bool
  rank : Nat
  rank_lt : rank < rankCount := by decide
deriving DecidableEq

/-! ## Ranks and units -/

/-- The significand of the magnitude of a rank. -/
def significand (rank : Nat) : Nat :=
  if rank < Nat.pow 2 53 then rank else Nat.pow 2 52 + rank % Nat.pow 2 52

/-- The power of two, in units, that the significand is multiplied by. -/
def shift (rank : Nat) : Nat :=
  if rank < Nat.pow 2 53 then 0 else rank / Nat.pow 2 52 - 1

/-- The magnitude of a rank in units of 2^-1074. -/
def units (rank : Nat) : Nat :=
  significand rank * Nat.pow 2 (shift rank)

/-- How many units make one. -/
def unitsPerOne : Nat := Nat.pow 2 1074

/-! ## Rounding -/

/-- A quotient rounded to the nearest whole number, a half to the even one. -/
def roundHalfEven (num den : Nat) : Nat :=
  let quotient := num / den
  let rest := num % den
  if 2 * rest < den then quotient
  else if den < 2 * rest then quotient + 1
  else quotient + quotient % 2

/-- The rank of the magnitude nearest to `num / den` units. The rank may lie
past the last finite one. -/
def nearestRank (num den : Nat) : Nat :=
  let quotient := num / den
  if quotient < Nat.pow 2 53 then roundHalfEven num den
  else
    let power := quotient.log2 - 52
    power * Nat.pow 2 52 + roundHalfEven num (den * Nat.pow 2 power)

/-- The number of a sign and a rank, unless the rank is past the last finite one. -/
def Binary64.ofRank? (negative : Bool) (rank : Nat) : Option Binary64 :=
  if h : rank < rankCount then some ⟨negative, rank, h⟩ else none

/-- The rank of the magnitude nearest to a natural number. -/
def rankOfNat (n : Nat) : Nat :=
  nearestRank (n * unitsPerOne) 1

/-- The rank of the product of two magnitudes. -/
def timesRank (a b : Nat) : Nat :=
  nearestRank (units a * units b) unitsPerOne

/-- The rank of the quotient of two magnitudes. -/
def overRank (a b : Nat) : Nat :=
  nearestRank (units a * unitsPerOne) (units b)

/-- Zero, with the positive sign. -/
def Binary64.zero : Binary64 := ⟨false, 0, by decide⟩

/-- The number nearest to an integer; integers of up to 64 bits all have one. -/
def Binary64.ofInt (i : Int) : Binary64 :=
  (Binary64.ofRank? (i < 0) (rankOfNat i.natAbs)).getD .zero

end ProxyPlan.Number
