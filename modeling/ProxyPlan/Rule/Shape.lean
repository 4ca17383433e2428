/-
ProxyPlan.Rule.Shape — the shapes of identifiers and addresses.
-/
import ProxyPlan.Text.Ascii
import ProxyPlan.Text.Blank
import ProxyPlan.Text.Digit

namespace ProxyPlan.Rule

/-- Groups of hexadecimal digits of the given lengths, joined by hyphens. -/
def isUuidList (cs : List Char) : Bool :=
  let groups := Text.splitList '-' cs
  groups.map List.length == [8, 4, 4, 4, 12] &&
    groups.all fun group => group.all fun c => (Text.hexValue? c).isSome

/-- A UUID, with white space around it at most. -/
def isUuid (value : String) : Bool :=
  isUuidList (Text.trimList value.toList)

/-- A decimal numeral up to 255, without leading zeros. -/
def isOctet (cs : List Char) : Bool :=
  match cs, Text.readNat? cs with
  | _, none => false
  | ['0'], some _ => true
  | '0' :: _, some _ => false
  | _, some n => n ≤ 255

/-- Four octets joined by dots. -/
def isIpv4 (address : String) : Bool :=
  let parts := Text.splitList '.' address.toList
  parts.length == 4 && parts.all isOctet

end ProxyPlan.Rule
