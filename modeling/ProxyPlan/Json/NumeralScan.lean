/-
ProxyPlan.Json.NumeralScan — a numeral, one character at a time.

A numeral has no closing mark: it ends at the first character that cannot
continue it, and whether it may end there depends on the part it is in.
-/
import ProxyPlan.Json.Fault
import ProxyPlan.Text.Digit

namespace ProxyPlan.Json

/-- The part of a numeral that was read last. -/
inductive NumeralPlace where
  | sign
  | leadingZero
  | whole
  | point
  | fraction
  | exponentMark
  | exponentSign
  | exponent

/-- A numeral in the making; digit lists hold the last digit first. -/
structure NumeralScan where
  place : NumeralPlace
  negative : Bool
  whole : List Nat
  fraction : List Nat
  down : Bool
  exponent : List Nat

/-- What one more character makes of a numeral. -/
inductive NumeralStep where
  | more (scan : NumeralScan)
  /-- The character is not part of the numeral, which is complete. -/
  | complete
  | malformed

namespace NumeralScan

/-- After a minus sign. -/
def minus : NumeralScan := ⟨.sign, true, [], [], false, []⟩

/-- The digit before a point or an exponent; after a zero no other follows. -/
def firstDigit (negative : Bool) (d : Nat) : NumeralScan :=
  ⟨if d = 0 then .leadingZero else .whole, negative, [d], [], false, []⟩

/-- A character after a digit before the point. -/
def afterWhole (n : NumeralScan) (c : Char) : NumeralStep :=
  if c = '.' then .more { n with place := .point }
  else if c = 'e' ∨ c = 'E' then .more { n with place := .exponentMark }
  else .complete

/-- One more character. -/
def step (n : NumeralScan) (c : Char) : NumeralStep :=
  match n.place, Text.digitValue? c with
  | .sign, some d => .more (firstDigit n.negative d)
  | .leadingZero, some _ => .malformed
  | .leadingZero, none => n.afterWhole c
  | .whole, some d => .more { n with whole := d :: n.whole }
  | .whole, none => n.afterWhole c
  | .point, some d => .more { n with place := .fraction, fraction := d :: n.fraction }
  | .fraction, some d => .more { n with fraction := d :: n.fraction }
  | .fraction, none =>
    if c = 'e' ∨ c = 'E' then .more { n with place := .exponentMark } else .complete
  | .exponentMark, some d => .more { n with place := .exponent, exponent := [d] }
  | .exponentMark, none =>
    if c = '+' then .more { n with place := .exponentSign }
    else if c = '-' then .more { n with place := .exponentSign, down := true }
    else .malformed
  | .exponentSign, some d => .more { n with place := .exponent, exponent := [d] }
  | .exponent, some d => .more { n with exponent := d :: n.exponent }
  | .exponent, none => .complete
  | .sign, none | .point, none | .exponentSign, none => .malformed

/-- The numeral may end here. -/
def mayEnd (n : NumeralScan) : Bool :=
  match n.place with
  | .leadingZero | .whole | .fraction | .exponent => true
  | .sign | .point | .exponentMark | .exponentSign => false

/-- The numeral as far as it was read. -/
def numeral (n : NumeralScan) : Number.Numeral where
  negative := n.negative
  whole := n.whole.reverse
  fraction := n.fraction.reverse
  exponent := if n.exponent.isEmpty then none else some (n.down, n.exponent.reverse)

/-- The value of the numeral, or that it is too large. -/
def value (n : NumeralScan) : Except Fault Number :=
  match n.numeral.value? with
  | some v => .ok v
  | none => .error .numberTooLarge

end NumeralScan
end ProxyPlan.Json
