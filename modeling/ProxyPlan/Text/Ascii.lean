/-
ProxyPlan.Text.Ascii — the small alphabet that protocol names and host names
are written in: case without regard to other scripts, splitting at a mark,
and the test for how a text begins.
-/
namespace ProxyPlan.Text

/-- The lower-case form of a Latin capital; every other character is itself. -/
def lowerChar (c : Char) : Char :=
  if 'A' ≤ c ∧ c ≤ 'Z' then Char.ofNat (c.toNat + 32) else c

/-- Lower-case the Latin capitals of a text. -/
def lower (s : String) : String :=
  String.ofList (s.toList.map lowerChar)

/-- Two texts that differ at most in the case of Latin letters. -/
def sameIgnoringCase (s t : String) : Bool :=
  s.toList.map lowerChar == t.toList.map lowerChar

/-- A Latin letter or an ASCII digit. -/
def isAlphanumeric (c : Char) : Bool :=
  ('a' ≤ c && c ≤ 'z') || ('A' ≤ c && c ≤ 'Z') || ('0' ≤ c && c ≤ '9')

/-- The pieces between the characters of a class; there is always one more
piece than there are such characters. -/
def splitBy (isMark : Char → Bool) : List Char → List (List Char)
  | [] => [[]]
  | c :: cs =>
    if isMark c then [] :: splitBy isMark cs
    else
      match splitBy isMark cs with
      | [] => [[c]]
      | piece :: pieces => (c :: piece) :: pieces

/-- The pieces between the occurrences of a mark. -/
def splitList (mark : Char) (cs : List Char) : List (List Char) :=
  splitBy (· == mark) cs

/-- The pieces of a text between the occurrences of a mark. -/
def split (mark : Char) (s : String) : List String :=
  (splitList mark s.toList).map String.ofList

/-- The text around the first occurrence of a mark. -/
def splitOnce? (mark : Char) : List Char → Option (List Char × List Char)
  | [] => none
  | c :: cs =>
    if c = mark then some ([], cs)
    else (splitOnce? mark cs).map fun (before, after) => (c :: before, after)

/-- `s` begins with `start`. -/
def startsWith (start s : String) : Bool :=
  start.toList.isPrefixOf s.toList

/-- `part` occurs somewhere in the text. -/
def occursIn (part : List Char) : List Char → Bool
  | [] => part.isEmpty
  | c :: cs => part.isPrefixOf (c :: cs) || occursIn part cs

end ProxyPlan.Text
