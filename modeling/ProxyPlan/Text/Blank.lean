/-
ProxyPlan.Text.Blank — white space as users type it, and trimming.

Names, tags, addresses and rules are compared after the white space at both
ends has been removed. "White space" is the Unicode property `White_Space`:
it has the no-break and ideographic spaces and the next-line control, and it
leaves out the zero-width space and the byte-order mark.
-/
namespace ProxyPlan.Text

/-- A character with the Unicode property `White_Space`. -/
def isBlank (c : Char) : Bool :=
  let n := c.toNat
  (9 ≤ n && n ≤ 13) || n == 0x20 || n == 0x85 || n == 0xA0 || n == 0x1680 ||
    (0x2000 ≤ n && n ≤ 0x200A) || n == 0x2028 || n == 0x2029 || n == 0x202F ||
    n == 0x205F || n == 0x3000

/-- The characters left when a class is removed from the end. -/
def dropEndWhile (p : Char → Bool) (cs : List Char) : List Char :=
  (cs.reverse.dropWhile p).reverse

/-- Remove the white space at both ends. -/
def trimList (cs : List Char) : List Char :=
  dropEndWhile isBlank (cs.dropWhile isBlank)

/-- Remove the white space at both ends of a text. -/
def trim (s : String) : String :=
  String.ofList (trimList s.toList)

/-- Nothing but white space. -/
def blank (s : String) : Bool :=
  s.toList.all isBlank

/-- The trimmed text, if anything is left of it. -/
def nonBlank? (s : String) : Option String :=
  if blank s then none else some (trim s)

end ProxyPlan.Text
