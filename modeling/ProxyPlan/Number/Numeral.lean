/-
ProxyPlan.Number.Numeral — the number that a written numeral stands for.

A numeral without point and exponent is an integer as long as it fits 64 bits;
any other is a binary number. The binary value is computed in a fixed order:
the digits are gathered into a 64-bit significand, digits that no longer fit
are dropped (those before the point still count as powers of ten), and the
significand, rounded once, is multiplied or divided by a power of ten that is
itself rounded. Values with few digits come out exact; long ones may differ
from the nearest number in the last place.
-/
import ProxyPlan.Number.Binary64

namespace ProxyPlan

/-- A number as a document holds it. -/
inductive Number where
  | integer (value : Int)
  | real (value : Number.Binary64)
deriving DecidableEq

namespace Number

/-- A numeral as written: digits before the point, digits after it, and the
sign and digits of the exponent. -/
structure Numeral where
  negative : Bool
  whole : List Nat
  fraction : List Nat
  exponent : Option (Bool × List Nat)

/-- The largest significand. -/
def significandLimit : Nat := Nat.pow 2 64 - 1

/-- Gather digits onto a significand until one no longer fits; the second part
counts the digits that were left out. -/
def gather (sofar : Nat) : List Nat → Nat × Nat
  | [] => (sofar, 0)
  | d :: ds =>
    if 10 * sofar + d ≤ significandLimit then gather (10 * sofar + d) ds
    else (sofar, (d :: ds).length)

/-- The number a list of digits spells. -/
def ofDigits (ds : List Nat) : Nat :=
  ds.foldl (fun n d => 10 * n + d) 0

/-! ## Powers of ten -/

/-- The largest power of ten in the format. -/
def topPower : Nat := 308

/-- The rank nearest to a power of ten. -/
def tenRank (power : Nat) : Nat :=
  rankOfNat (Nat.pow 10 power)

/-- Divide a magnitude by a power of ten, in steps no larger than the largest
power of the format. -/
def shrink (rank power : Nat) : Nat :=
  if power ≤ topPower then overRank rank (tenRank power)
  else if rank = 0 then 0
  else shrink (overRank rank (tenRank topPower)) (power - topPower)
termination_by power
decreasing_by simp only [topPower] at *; omega

/-- Multiply a magnitude by a power of ten; past the largest power only zero
stays finite. -/
def grow (rank power : Nat) : Nat :=
  if power ≤ topPower then timesRank rank (tenRank power)
  else if rank = 0 then 0
  else rankCount

/-- A significand times a power of ten. -/
def scale (significand : Nat) : Int → Nat
  | .ofNat power => grow (rankOfNat significand) power
  | .negSucc n => shrink (rankOfNat significand) (n + 1)

/-! ## The value -/

/-- The largest exponent that is computed with. -/
def exponentLimit : Nat := Nat.pow 2 31 - 1

/-- The binary value of significand, power of ten and written exponent. -/
def binary? (negative : Bool) (significand : Nat) (power : Int) :
    Option (Bool × List Nat) → Option Binary64
  | none => Binary64.ofRank? negative (scale significand power)
  | some (down, digits) =>
    let e := ofDigits digits
    if exponentLimit < e then
      if significand ≠ 0 ∧ ¬ down then none else Binary64.ofRank? negative 0
    else
      Binary64.ofRank? negative (scale significand (if down then power - e else power + e))

/-- The value of a numeral; `none` if it is too large for the format. -/
def Numeral.value? (n : Numeral) : Option Number :=
  let (whole, dropped) := gather 0 n.whole
  if n.fraction.isEmpty && n.exponent.isNone then
    if dropped ≠ 0 then (binary? n.negative whole dropped none).map .real
    else if ¬ n.negative then some (.integer whole)
    else if whole ≠ 0 ∧ whole ≤ Nat.pow 2 63 then some (.integer (-whole))
    else (binary? true whole 0 none).map .real
  else
    let (all, unread) := gather whole n.fraction
    let places := n.fraction.length - unread
    (binary? n.negative all ((dropped : Int) - places) n.exponent).map .real

end Number
end ProxyPlan
