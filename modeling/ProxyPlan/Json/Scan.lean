/-
ProxyPlan.Json.Scan — from a text to its tree, one character at a time.

The scan is a fold over the characters with an explicit stack of the
containers that are still open, so it is total by construction and a longer
text is scanned by going on from where a shorter one ended. At the first place
that nobody can get past it halts, and the containers that are open then are
closed around the broken place.
-/
import ProxyPlan.Json.NumeralScan
import ProxyPlan.Json.TextScan
import ProxyPlan.Json.Tree

namespace ProxyPlan.Json

/-- A key, which only a reader needs to be a proper string. -/
abbrev Key := Except Fault String

/-- A container that is open while a value inside it is scanned; what it holds
so far, last first. -/
inductive Frame where
  | list (done : List Tree)
  | object (done : List (Key × Tree)) (key : Key)
  /-- Something other than a string stands where a key should stand. -/
  | stray (done : List (Key × Tree))

/-- Where in the text the scan stands. -/
inductive Scan where
  | value (stack : List Frame)
  | firstItem (stack : List Frame)
  | nextItem (done : List Tree) (stack : List Frame)
  | itemEnd (done : List Tree) (stack : List Frame)
  | firstKey (stack : List Frame)
  | nextKey (done : List (Key × Tree)) (stack : List Frame)
  | keyText (scan : TextScan) (done : List (Key × Tree)) (stack : List Frame)
  | colon (key : Key) (done : List (Key × Tree)) (stack : List Frame)
  | fieldEnd (done : List (Key × Tree)) (stack : List Frame)
  | word (first : Char) (rest : List Char) (meaning : Tree) (stack : List Frame)
  | numeral (scan : NumeralScan) (stack : List Frame)
  | text (scan : TextScan) (stack : List Frame)
  /-- The value is complete; whether anything but white space followed. -/
  | complete (tree : Tree) (trailing : Bool)
  | halted (tree : Tree)

namespace Scan

/-- The white space that may stand between tokens. -/
def isSpace (c : Char) : Bool :=
  c == ' ' || c == '\n' || c == '\t' || c == '\r'

/-- The object that a stray token in the place of a key ends. -/
def strayObject (done : List (Key × Tree)) (found : Except Fault Shape) : Tree :=
  .object done.reverse (.strayKey found)

/-- Close the open containers around a place that nobody gets past. -/
def enclose (tree : Tree) : List Frame → Tree
  | [] => tree
  | .list done :: stack => enclose (.list (tree :: done).reverse .closed) stack
  | .object done key :: stack => enclose (.object ((key, tree) :: done).reverse .closed) stack
  | .stray done :: stack => enclose (strayObject done tree.shape) stack

/-- Stop at a place that nobody gets past. -/
def halt (tree : Tree) (stack : List Frame) : Scan :=
  .halted (enclose tree stack)

/-- A value is complete: hand it to the container around it. -/
def deliver (tree : Tree) : List Frame → Scan
  | [] => .complete tree false
  | .list done :: stack => .itemEnd (tree :: done) stack
  | .object done key :: stack => .fieldEnd ((key, tree) :: done) stack
  | .stray done :: stack => halt (strayObject done tree.shape) stack

/-- The first character of a value. -/
def openValue (c : Char) (stack : List Frame) : Scan :=
  match c with
  | 'n' => .word 'n' ['u', 'l', 'l'] .null stack
  | 't' => .word 't' ['r', 'u', 'e'] (.bool true) stack
  | 'f' => .word 'f' ['a', 'l', 's', 'e'] (.bool false) stack
  | '"' => .text .start stack
  | '[' => .firstItem stack
  | '\x7b' => .firstKey stack
  | '-' => .numeral .minus stack
  | c =>
    match Text.digitValue? c with
    | some d => .numeral (.firstDigit false d) stack
    | none => halt (.broken none .valueExpected .valueExpected) stack

/-- The first character of something that stands where a key should stand. -/
def openStray (c : Char) (done : List (Key × Tree)) (stack : List Frame) : Scan :=
  match c with
  | '[' => halt (strayObject done (.ok .list)) stack
  | '\x7b' => halt (strayObject done (.ok .object)) stack
  | c => openValue c (.stray done :: stack)

/-- A character where a container goes on or ends, or after the whole value. -/
def between (s : Scan) (c : Char) : Scan :=
  if isSpace c then s
  else
    match s with
    | .itemEnd done stack =>
      if c = ',' then .nextItem done stack
      else if c = ']' then deliver (.list done.reverse .closed) stack
      else halt (.list done.reverse .noSeparator) stack
    | .fieldEnd done stack =>
      if c = ',' then .nextKey done stack
      else if c = '\x7d' then deliver (.object done.reverse .closed) stack
      else halt (.object done.reverse .noSeparator) stack
    | .complete tree _ => .complete tree true
    | s => s

/-- One more character of the text. -/
def step (s : Scan) (c : Char) : Scan :=
  match s with
  | .value stack => if isSpace c then s else openValue c stack
  | .firstItem stack =>
    if isSpace c then s
    else if c = ']' then deliver (.list [] .closed) stack
    else openValue c (.list [] :: stack)
  | .nextItem done stack =>
    if isSpace c then s
    else if c = ']' then halt (.list done.reverse .danglingComma) stack
    else openValue c (.list done :: stack)
  | .firstKey stack =>
    if isSpace c then s
    else if c = '"' then .keyText .start [] stack
    else if c = '\x7d' then deliver (.object [] .closed) stack
    else openStray c [] stack
  | .nextKey done stack =>
    if isSpace c then s
    else if c = '"' then .keyText .start done stack
    else if c = '\x7d' then halt (.object done.reverse .danglingComma) stack
    else openStray c done stack
  | .keyText scan done stack =>
    match scan.step c with
    | .more scan => .keyText scan done stack
    | .closed key => .colon key done stack
    | .broken read skipped => halt (.object done.reverse (.brokenKey read skipped)) stack
  | .colon key done stack =>
    if isSpace c then s
    else if c = ':' then .value (.object done key :: stack)
    else halt (.broken none .colonExpected .colonExpected) (.object done key :: stack)
  | .word _ [] meaning stack => between (deliver meaning stack) c
  | .word first (d :: rest) meaning stack =>
    if c ≠ d then halt (.broken (some first) .wordExpected .wordExpected) stack
    else if rest.isEmpty then deliver meaning stack
    else .word first rest meaning stack
  | .numeral scan stack =>
    match scan.step c with
    | .more scan => .numeral scan stack
    | .complete => between (deliver (.number scan.value) stack) c
    | .malformed => halt (.broken (some '0') .malformedNumber .malformedNumber) stack
  | .text scan stack =>
    match scan.step c with
    | .more scan => .text scan stack
    | .closed content => deliver (.text content) stack
    | .broken read skipped => halt (.broken none read skipped) stack
  | .itemEnd _ _ | .fieldEnd _ _ | .complete _ _ => between s c
  | .halted _ => s

/-- The tree when the text ends at a point between tokens. -/
def finishBetween : Scan → Tree
  | .itemEnd done stack => enclose (.list done.reverse .cut) stack
  | .fieldEnd done stack => enclose (.object done.reverse .cut) stack
  | .complete tree _ => tree
  | .halted tree => tree
  | _ => .broken none .endInValue .endInValue

/-- The tree of a text that ends here. -/
def finish : Scan → Tree
  | .value stack => enclose (.broken none .endInValue .endInValue) stack
  | .firstItem stack => enclose (.list [] .cut) stack
  | .nextItem done stack => enclose (.broken none .endInValue .endInValue) (.list done :: stack)
  | .firstKey stack => enclose (.object [] .cut) stack
  | .nextKey done stack => enclose (.object done.reverse .cutAfterComma) stack
  | .keyText scan done stack =>
    enclose (.object done.reverse (.brokenKey scan.cut.1 scan.cut.2)) stack
  | .colon key done stack => enclose (.broken none .endInObject .endInObject) (.object done key :: stack)
  | .word first _ _ stack => enclose (.broken (some first) .endInValue .endInValue) stack
  | .numeral scan stack =>
    if scan.mayEnd then finishBetween (deliver (.number scan.value) stack)
    else enclose (.broken (some '0') .endInValue .malformedNumber) stack
  | .text scan stack => enclose (.broken none scan.cut.1 scan.cut.2) stack
  | s => finishBetween s

/-- Something but white space follows the value. -/
def hasTrailing : Scan → Bool
  | .complete _ trailing => trailing
  | _ => false

/-- Scan on over more characters. -/
def run (s : Scan) (cs : List Char) : Scan :=
  cs.foldl step s

end Scan

/-- The scan of a whole text. -/
def scan (text : String) : Scan :=
  Scan.run (.value []) text.toList

end ProxyPlan.Json
