/-
ProxyPlan.Pattern.CharSet — sets of characters, as patterns describe them.

A set is kept as the expression it was written as, and membership is decided
by recursion on it. Closing a set under case is one of its operations, because
where it is applied (before a complement, and to each side of an intersection)
changes the meaning.
-/
import ProxyPlan.Text.Blank
import ProxyPlan.Text.CaseFold
import ProxyPlan.Text.Category

namespace ProxyPlan.Pattern

/-- Properties that name a set of characters. -/
inductive Property where
  | any
  | assigned
  | ascii
  | alphabetic
  | lowercase
  | uppercase
  | blank
  | decimal
  | word
  /-- A general category; without a second letter, all that begin with the first. -/
  | category (major : Char) (minor : Option Char)
  /-- Letters that have case. -/
  | cased
  | script (name : String)
deriving DecidableEq

/-- Lower-case characters that are no lower-case letters. -/
def otherLowercase : List (Nat × Nat) :=
  [(0xAA, 0xAA), (0xBA, 0xBA), (0x2B0, 0x2B8), (0x2C0, 0x2C1), (0x2E0, 0x2E4), (0x345, 0x345),
   (0x37A, 0x37A), (0x10FC, 0x10FC), (0x1D2C, 0x1D6A), (0x1D78, 0x1D78), (0x1D9B, 0x1DBF),
   (0x2071, 0x2071), (0x207F, 0x207F), (0x2090, 0x209C), (0x2170, 0x217F), (0x24D0, 0x24E9),
   (0x2C7C, 0x2C7D), (0xA69C, 0xA69D), (0xA770, 0xA770), (0xA7F2, 0xA7F4), (0xA7F8, 0xA7F9),
   (0xAB5C, 0xAB5F), (0xAB69, 0xAB69), (0x10780, 0x10780), (0x10783, 0x10785),
   (0x10787, 0x107B0), (0x107B2, 0x107BA), (0x1E030, 0x1E06D)]

/-- Upper-case characters that are no upper-case letters. -/
def otherUppercase : List (Nat × Nat) :=
  [(0x2160, 0x216F), (0x24B6, 0x24CF), (0x1F130, 0x1F149), (0x1F150, 0x1F169), (0x1F170, 0x1F189)]

/-- A code point lies in one of some ranges. -/
def inRanges (ranges : List (Nat × Nat)) (n : Nat) : Bool :=
  ranges.any fun r => r.1 ≤ n && n ≤ r.2

/-- A character that belongs to words: letters in the wide sense, marks,
digits, connectors and joiners. -/
def isWordChar (c : Char) : Bool :=
  Text.isAlphabetic c || Text.isDecimal c || c = '\u200c' || c = '\u200d' ||
    (Text.category c).major = 'M' || Text.category c = ⟨'P', 'c'⟩

/-- A character has a property. -/
def Property.holds (c : Char) : Property → Bool
  | .any => true
  | .assigned => Text.category c ≠ ⟨'C', 'n'⟩
  | .ascii => c.toNat < 128
  | .alphabetic => Text.isAlphabetic c
  | .lowercase => Text.category c = ⟨'L', 'l'⟩ || inRanges otherLowercase c.toNat
  | .uppercase => Text.category c = ⟨'L', 'u'⟩ || inRanges otherUppercase c.toNat
  | .blank => Text.isBlank c
  | .decimal => Text.isDecimal c
  | .word => isWordChar c
  -- digits are the same under all their names
  | .category 'N' (some 'd') => Text.isDecimal c
  | .category 'N' none => Text.isDecimal c || (Text.category c).major = 'N'
  | .category major minor =>
    let k := Text.category c
    k.major = major && (match minor with | some m => k.minor = m | none => true)
  | .cased =>
    let k := Text.category c
    k.major = 'L' && (k.minor = 'u' || k.minor = 'l' || k.minor = 't')
  | .script name => Text.scriptOf c = name

/-- A set of characters. -/
inductive CharSet where
  | empty
  | range (first last : Nat)
  | property (p : Property)
  | union (a b : CharSet)
  | inter (a b : CharSet)
  | diff (a b : CharSet)
  | symmDiff (a b : CharSet)
  | complement (a : CharSet)
  /-- Closed under case, in every script. -/
  | folded (a : CharSet)
  /-- Closed under the case of Latin letters. -/
  | asciiFolded (a : CharSet)

namespace CharSet

/-- The set of one character. -/
def only (c : Char) : CharSet := .range c.toNat c.toNat

/-- The union of ranges. -/
def ranges : List (Nat × Nat) → CharSet
  | [] => .empty
  | (first, last) :: rest => .union (.range first last) (ranges rest)

/-- The other case of a Latin letter, if it is one. -/
def asciiOrbit (n : Nat) : List Nat :=
  if 65 ≤ n && n ≤ 90 then [n, n + 32] else if 97 ≤ n && n ≤ 122 then [n, n - 32] else [n]

/-- Membership of a code point. -/
def holds : CharSet → Nat → Bool
  | .empty, _ => false
  | .range first last, n => first ≤ n && n ≤ last
  | .property p, n => p.holds (Char.ofNat n)
  | .union a b, n => a.holds n || b.holds n
  | .inter a b, n => a.holds n && b.holds n
  | .diff a b, n => a.holds n && !b.holds n
  | .symmDiff a b, n => a.holds n != b.holds n
  | .complement a, n => !a.holds n
  | .folded a, n => (Text.caseOrbit n).any a.holds
  | .asciiFolded a, n => (asciiOrbit n).any a.holds

/-- The set has ASCII characters only, as far as single bytes can tell. -/
def isAscii (s : CharSet) : Bool :=
  (List.range 128).all fun i => !s.holds (128 + i)

end CharSet
end ProxyPlan.Pattern
