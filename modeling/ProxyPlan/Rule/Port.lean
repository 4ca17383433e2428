/-
ProxyPlan.Rule.Port — lists of ports.

A list is well formed if it is made of numerals and ranges of two numerals,
joined by commas, with digits of any script. Matching is more lenient in its
form, passing over blanks and empty parts, and stricter in its numbers, which
are those of 32 bits in ASCII digits; an entry that does not read never
matches.
-/
import ProxyPlan.Text.Ascii
import ProxyPlan.Text.Blank
import ProxyPlan.Text.Digit

namespace ProxyPlan.Rule

/-! ## Well-formed lists -/

/-- One or more digits. -/
def isNumeral (cs : List Char) : Bool :=
  !cs.isEmpty && cs.all Text.isDecimal

/-- A numeral, or two with a hyphen between them. -/
def isEntry (cs : List Char) : Bool :=
  match Text.splitOnce? '-' cs with
  | none => isNumeral cs
  | some (low, high) => isNumeral low && isNumeral high

/-- Entries joined by commas. -/
def isPortList (spec : String) : Bool :=
  (Text.splitList ',' (Text.trimList spec.toList)).all isEntry

/-! ## Matching -/

/-- An entry lists a port. -/
def entryMatches (port : UInt16) (entry : List Char) : Bool :=
  match Text.splitOnce? '-' entry with
  | some (low, high) =>
    match Text.readWord? (Text.trimList low), Text.readWord? (Text.trimList high) with
    | some low, some high => low ≤ port.toUInt32 && port.toUInt32 ≤ high
    | _, _ => false
  | none => Text.readWord? entry == some port.toUInt32

/-- Some entry of a list lists a port. -/
def matchesPort (spec : String) (port : UInt16) : Bool :=
  ((Text.splitList ',' spec.toList).map Text.trimList).any fun entry =>
    !entry.isEmpty && entryMatches port entry

end ProxyPlan.Rule
