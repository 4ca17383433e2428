/-
ProxyPlan.Pattern.Reader — patterns out of their written form.

The form is the usual one: alternatives, groups with and without names,
counted and uncounted repetition, bracketed classes with nesting and set
operations, classes of properties, anchors, and flags that hold to the end of
their group. Neither conditions on what comes before or after at a distance
nor references to earlier groups belong to it. Whatever is not well formed is
no pattern at all, and so is what names a property that is not known here.

The reader goes through the text once. Open groups and classes stand on a
stack, and every step takes at least one character, so the length of the text
bounds the number of steps.

This is what rules for domains are run with (`engine`). It is not what they are
defined by: they take any `Rule.Patterns`, so that nothing depends on how far
this form agrees with that of some library.
-/
import ProxyPlan.Pattern.Basic
import ProxyPlan.Rule.Domain
import ProxyPlan.Text.Ascii

namespace ProxyPlan.Pattern

/-! ## Flags -/

/-- The flags in force. -/
structure Flags where
  ignoreCase : Bool
  multiLine : Bool
  dotAll : Bool
  unicode : Bool
  /-- White space and comments in the pattern are passed over. -/
  spaced : Bool
  crlf : Bool

/-- Case is ignored and nothing else is set, except that all scripts count. -/
def Flags.usual : Flags := ⟨true, false, false, true, false, false⟩

/-- Set or unset the flag of a letter. Swapping greediness changes no answer. -/
def Flags.set (f : Flags) (on : Bool) : Char → Option Flags
  | 'i' => some { f with ignoreCase := on }
  | 'm' => some { f with multiLine := on }
  | 's' => some { f with dotAll := on }
  | 'U' => some f
  | 'u' => some { f with unicode := on }
  | 'R' => some { f with crlf := on }
  | 'x' => some { f with spaced := on }
  | _ => none

/-- Flag letters up to a colon or a closing parenthesis, which is also given
back. No letter may occur twice, nor may the minus sign or end the letters. -/
def readFlags (f : Flags) (seen : List Char) :
    List Char → Option (Flags × List Char × Char × List Char)
  | [] => none
  | c :: cs =>
    if c = ':' ∨ c = ')' then
      if seen.head? = some '-' then none else some (f, seen, c, cs)
    else if seen.contains c then none
    else if c = '-' then readFlags f ('-' :: seen) cs
    else (f.set (!seen.contains '-') c).bind fun f => readFlags f (c :: seen) cs

/-! ## White space between the parts of a spaced pattern -/

/-- Pass over the rest of a line. -/
def dropLine (cs : List Char) : List Char :=
  (cs.dropWhile (· ≠ '\n')).drop 1

/-- Pass over white space and comments, for at most so many of them. -/
def dropSpace : (fuel : Nat) → List Char → List Char
  | 0, cs => cs
  | fuel + 1, cs =>
    match cs with
    | '#' :: rest => dropSpace fuel (dropLine rest)
    | c :: rest => if Text.isBlank c then dropSpace fuel rest else c :: rest
    | [] => []

/-- Pass over white space and comments if they do not count. -/
def Flags.skip (f : Flags) (cs : List Char) : List Char :=
  if f.spaced then dropSpace cs.length cs else cs

/-! ## Single characters and classes behind a backslash -/

/-- What a backslash or a plain character can stand for. -/
inductive Atom where
  /-- A character; a byte if it was written as one. -/
  | char (c : Char) (byte : Bool)
  | set (s : CharSet)
  | look (l : Look)

/-- The set as it is meant under the flags: closed under case, then negated. -/
def Flags.close (f : Flags) (negated : Bool) (s : CharSet) : CharSet :=
  let s := if f.ignoreCase then (if f.unicode then .folded s else .asciiFolded s) else s
  if negated then .complement s else s

/-- Digits, white space and word characters in ASCII. -/
def asciiClass : Char → Option CharSet
  | 'd' => some (.range 48 57)
  | 's' => some (.ranges [(9, 13), (32, 32)])
  | 'w' => some (.ranges [(48, 57), (65, 90), (95, 95), (97, 122)])
  | _ => none

/-- Digits, white space and word characters in all scripts. -/
def wideClass : Char → Option CharSet
  | 'd' => some (.property .decimal)
  | 's' => some (.property .blank)
  | 'w' => some (.property .word)
  | _ => none

/-- The class of a letter, negated by a capital. -/
def Flags.letterClass (f : Flags) (c : Char) : Option CharSet := do
  let s ← if f.unicode then wideClass (Text.lowerChar c) else asciiClass (Text.lowerChar c)
  let s := if c = Text.lowerChar c then s else .complement s
  if f.unicode || s.isAscii then some s else none

/-- The characters that make words. -/
def Flags.words (f : Flags) : CharSet :=
  if f.unicode then .property .word
  else .ranges [(48, 57), (65, 90), (95, 95), (97, 122)]

/-- Hexadecimal digits read onto a number. -/
def readHex (sofar : Nat) : List Char → Option Nat
  | [] => some sofar
  | c :: cs => (Text.hexValue? c).bind fun d => readHex (16 * sofar + d) cs

/-- The character of a code point. -/
def charOf? (n : Nat) : Option Char :=
  if h : n.isValidChar then some (Char.ofNatAux n h) else none

/-- So many digits, white space between them passed over if it does not count. -/
def takeHex (f : Flags) : (count : Nat) → List Char → Option (List Char × List Char)
  | 0, cs => some ([], cs)
  | count + 1, c :: cs => do
    let _ ← Text.hexValue? c
    let (digits, rest) ← takeHex f count (f.skip cs)
    return (c :: digits, rest)
  | _ + 1, [] => none

/-- Text up to a closing brace, white space passed over if it does not count. -/
def takeBraced (f : Flags) (cs : List Char) : Option (List Char × List Char) :=
  match cs.span (· ≠ '\x7d') with
  | (inner, _ :: rest) =>
    some (if f.spaced then inner.filter fun c => !Text.isBlank c else inner, rest)
  | (_, []) => none

/-- The code point behind `\x`, `\u` or `\U`. -/
def readCodePoint (f : Flags) (kind : Char) (cs : List Char) : Option (Atom × List Char) :=
  match f.skip cs with
  | '\x7b' :: cs => do
    let (digits, rest) ← takeBraced f cs
    if digits.isEmpty then none
    else do
      let n ← readHex 0 digits
      let c ← charOf? n
      return (.char c false, f.skip rest)
  | cs => do
    let count := if kind = 'x' then 2 else if kind = 'u' then 4 else 8
    let (digits, rest) ← takeHex f count cs
    let n ← readHex 0 digits
    let c ← charOf? n
    return (.char c (kind = 'x'), rest)

/-! ## Properties -/

/-- The name of a property without regard to case, spaces, marks and `is`. -/
def plainName (name : List Char) : String :=
  let cs := (name.filter fun c => c ≠ ' ' ∧ c ≠ '_' ∧ c ≠ '-' ∧ c.toNat < 128).map Text.lowerChar
  match cs with
  | 'i' :: 's' :: rest =>
    if rest = ['c'] then "isc" else String.ofList rest
  | cs => String.ofList cs

/-- General categories by their names. -/
def categoryNames : List (List String × Char × Option Char) :=
  [(["c", "other"], 'C', none), (["cc", "control", "cntrl"], 'C', some 'c'),
   (["cf", "format"], 'C', some 'f'), (["cn", "unassigned"], 'C', some 'n'),
   (["co", "privateuse"], 'C', some 'o'), (["cs", "surrogate"], 'C', some 's'),
   (["l", "letter"], 'L', none), (["ll", "lowercaseletter"], 'L', some 'l'),
   (["lm", "modifierletter"], 'L', some 'm'), (["lo", "otherletter"], 'L', some 'o'),
   (["lt", "titlecaseletter"], 'L', some 't'), (["lu", "uppercaseletter"], 'L', some 'u'),
   (["m", "mark", "combiningmark"], 'M', none), (["mc", "spacingmark"], 'M', some 'c'),
   (["me", "enclosingmark"], 'M', some 'e'), (["mn", "nonspacingmark"], 'M', some 'n'),
   (["n", "number"], 'N', none), (["nd", "decimalnumber", "digit"], 'N', some 'd'),
   (["nl", "letternumber"], 'N', some 'l'), (["no", "othernumber"], 'N', some 'o'),
   (["p", "punctuation", "punct"], 'P', none), (["pc", "connectorpunctuation"], 'P', some 'c'),
   (["pd", "dashpunctuation"], 'P', some 'd'), (["pe", "closepunctuation"], 'P', some 'e'),
   (["pf", "finalpunctuation"], 'P', some 'f'), (["pi", "initialpunctuation"], 'P', some 'i'),
   (["po", "otherpunctuation"], 'P', some 'o'), (["ps", "openpunctuation"], 'P', some 's'),
   (["s", "symbol"], 'S', none), (["sc", "currencysymbol"], 'S', some 'c'),
   (["sk", "modifiersymbol"], 'S', some 'k'), (["sm", "mathsymbol"], 'S', some 'm'),
   (["so", "othersymbol"], 'S', some 'o'), (["z", "separator"], 'Z', none),
   (["zl", "lineseparator"], 'Z', some 'l'), (["zp", "paragraphseparator"], 'Z', some 'p'),
   (["zs", "spaceseparator"], 'Z', some 's')]

/-- A general category by name. -/
def categoryNamed? (name : String) : Option Property :=
  if name = "any" then some .any
  else if name = "assigned" then some .assigned
  else if name = "ascii" then some .ascii
  else if name = "lc" || name = "casedletter" then some .cased
  else
    (categoryNames.find? fun entry => entry.1.contains name).map fun entry =>
      .category entry.2.1 entry.2.2

/-- A property that is true or false of a character, by name. -/
def binaryNamed? : String → Option Property
  | "alphabetic" | "alpha" => some .alphabetic
  | "lowercase" | "lower" => some .lowercase
  | "uppercase" | "upper" => some .uppercase
  | "whitespace" | "wspace" | "space" => some .blank
  | _ => none

/-- A script by name. -/
def scriptProperty? (name : String) : Option Property :=
  (Text.scriptNamed? name).map .script

/-- A property by its name alone. -/
def propertyNamed? (name : String) : Option Property :=
  ((binaryNamed? name).or (categoryNamed? name)).or (scriptProperty? name)

/-- A property by name and value. -/
def propertyValue? (name value : String) : Option Property :=
  match name with
  | "generalcategory" | "gc" | "category" => categoryNamed? value
  | "script" | "sc" | "scriptextensions" | "scx" => scriptProperty? value
  | _ => none

/-- The property that the text between braces asks for, and whether it is
asked not to hold. -/
def readProperty (inner : List Char) : Option (Property × Bool) :=
  let split := fun (mark : Char) => Text.splitOnce? mark inner
  match inner.span (· ≠ '!') with
  | (name, '!' :: '=' :: value) =>
    (propertyValue? (plainName name) (plainName value)).map fun p => (p, true)
  | _ =>
    match split ':' with
    | some (name, value) =>
      (propertyValue? (plainName name) (plainName value)).map fun p => (p, false)
    | none =>
      match split '=' with
      | some (name, value) =>
        (propertyValue? (plainName name) (plainName value)).map fun p => (p, false)
      | none => (propertyNamed? (plainName inner)).map fun p => (p, false)

/-- The class behind `\p` or, negated, `\P`. -/
def readPropertyClass (f : Flags) (negated : Bool) (cs : List Char) : Option (Atom × List Char) :=
  if !f.unicode then none
  else
    match f.skip cs with
    | '\x7b' :: cs => do
      let (inner, rest) ← takeBraced f cs
      let (p, not) ← readProperty inner
      return (.set (f.close (negated != not) (.property p)), rest)
    | '\\' :: _ => none
    | c :: rest => do
      let p ← categoryNamed? (plainName [c])
      return (.set (f.close negated (.property p)), f.skip rest)
    | [] => none

/-! ## Escapes -/

/-- The conditions on words that are written between braces. -/
def namedEdge? : String → Option Look
  | "start" => some .wordStart
  | "end" => some .wordEnd
  | "start-half" => some .wordStartHalf
  | "end-half" => some .wordEndHalf
  | _ => none

/-- What may follow `\b`: a kind of edge between braces, unless the brace
opens a count. -/
def readEdge (f : Flags) (cs : List Char) : Option (Atom × List Char) :=
  match cs with
  | '\x7b' :: inner =>
    match f.skip inner with
    | [] => none
    | c :: _ =>
      if Text.isAlphanumeric c && !('0' ≤ c && c ≤ '9') || c = '-' then do
        let (name, rest) ← takeBraced f inner
        let l ← namedEdge? (String.ofList name)
        return (.look l, rest)
      else some (.look .wordEdge, cs)
  | cs => some (.look .wordEdge, cs)

/-- Characters that mean themselves behind a backslash: ASCII other than
letters, digits and angle brackets. -/
def isEscapable (c : Char) : Bool :=
  c.toNat < 128 && !Text.isAlphanumeric c && c ≠ '<' && c ≠ '>'

/-- What a backslash and the characters after it stand for. -/
def readEscape (f : Flags) : List Char → Option (Atom × List Char)
  | [] => none
  | c :: cs =>
    match c with
    | 'x' | 'u' | 'U' => readCodePoint f c cs
    | 'p' => readPropertyClass f false cs
    | 'P' => readPropertyClass f true cs
    | 'd' | 's' | 'w' | 'D' | 'S' | 'W' => (f.letterClass c).map fun s => (.set s, cs)
    | 'a' => some (.char '\x07' false, cs)
    | 'f' => some (.char '\x0c' false, cs)
    | 't' => some (.char '\t' false, cs)
    | 'n' => some (.char '\n' false, cs)
    | 'r' => some (.char '\r' false, cs)
    | 'v' => some (.char '\x0b' false, cs)
    | 'A' => some (.look .textStart, cs)
    | 'z' => some (.look .textEnd, cs)
    | 'b' => readEdge f cs
    | 'B' => some (.look .noWordEdge, cs)
    | '<' => some (.look .wordStart, cs)
    | '>' => some (.look .wordEnd, cs)
    | c => if isEscapable c then some (.char c false, cs) else none

/-- A character on its own. A byte above ASCII stands for no character. -/
def Flags.single (f : Flags) (c : Char) (byte : Bool) : Option CharSet :=
  if f.unicode then some (if f.ignoreCase then .folded (.only c) else .only c)
  else if byte && 128 ≤ c.toNat then none
  else some (if f.ignoreCase then .asciiFolded (.only c) else .only c)

/-! ## Bracketed classes -/

/-- Operations between the sets of a class, all of one strength. -/
inductive SetOp where
  | inter
  | diff
  | symmDiff

/-- A class that is open. -/
structure OpenClass where
  negated : Bool
  /-- The operation under way, with its left side. -/
  pending : Option (SetOp × CharSet)
  /-- The union read so far. -/
  items : CharSet

/-- The set that has been read, with the operation under way carried out. -/
def OpenClass.total (f : Flags) (o : OpenClass) : CharSet :=
  match o.pending with
  | none => o.items
  | some (op, left) =>
    let a := f.close false left
    let b := f.close false o.items
    match op with
    | .inter => .inter a b
    | .diff => .diff a b
    | .symmDiff => .symmDiff a b

/-- Add a set to the union. -/
def OpenClass.add (o : OpenClass) (s : CharSet) : OpenClass :=
  { o with items := .union o.items s }

/-- Start an operation. -/
def OpenClass.start (f : Flags) (o : OpenClass) (op : SetOp) : OpenClass :=
  { o with pending := some (op, o.total f), items := .empty }

/-- The classes with names between colons. -/
def namedClass? : String → Option CharSet
  | "alnum" => some (.ranges [(48, 57), (65, 90), (97, 122)])
  | "alpha" => some (.ranges [(65, 90), (97, 122)])
  | "ascii" => some (.range 0 127)
  | "blank" => some (.ranges [(9, 9), (32, 32)])
  | "cntrl" => some (.ranges [(0, 31), (127, 127)])
  | "digit" => some (.range 48 57)
  | "graph" => some (.range 33 126)
  | "lower" => some (.range 97 122)
  | "print" => some (.range 32 126)
  | "punct" => some (.ranges [(33, 47), (58, 64), (91, 96), (123, 126)])
  | "space" => some (.ranges [(9, 13), (32, 32)])
  | "upper" => some (.range 65 90)
  | "word" => some (.ranges [(48, 57), (65, 90), (95, 95), (97, 122)])
  | "xdigit" => some (.ranges [(48, 57), (65, 70), (97, 102)])
  | _ => none

/-- A class with a name between colons, behind its opening bracket. -/
def readNamedClass (f : Flags) (cs : List Char) : Option (CharSet × List Char) :=
  match cs with
  | ':' :: cs =>
    let (negated, cs) := match cs with
      | '^' :: cs => (true, cs)
      | cs => (false, cs)
    match cs.span (· ≠ ':') with
    | (name, ':' :: ']' :: rest) =>
      (namedClass? (String.ofList name)).map fun s => (f.close negated s, rest)
    | _ => none
  | _ => none

/-- Hyphens at the beginning of a class stand for themselves. -/
def readHyphens (f : Flags) (o : OpenClass) : (fuel : Nat) → List Char → OpenClass × List Char
  | fuel + 1, '-' :: cs => readHyphens f (o.add (.only '-')) fuel (f.skip cs)
  | _, cs => (o, cs)

/-- The beginning of a class, behind its bracket: negation, hyphens, and a
closing bracket that stands for itself in the first place. -/
def openClass (f : Flags) (cs : List Char) : OpenClass × List Char :=
  let cs := f.skip cs
  let (negated, cs) := match cs with
    | '^' :: cs => (true, f.skip cs)
    | cs => (false, cs)
  let start : OpenClass := ⟨negated, none, .empty⟩
  match cs with
  | ']' :: rest => (start.add (.only ']'), f.skip rest)
  | cs => readHyphens f start cs.length cs

/-- One member of a class: a character, or a set behind a backslash. -/
def readMember (f : Flags) : List Char → Option (Atom × List Char)
  | '\\' :: cs => readEscape f cs
  | c :: cs => some (.char c false, cs)
  | [] => none

/-- A character as an end of a range; without scripts only bytes will do. -/
def Flags.bound (f : Flags) (c : Char) (byte : Bool) : Option Nat :=
  if f.unicode || c.toNat < 128 || (byte && c.toNat < 256) then some c.toNat else none

/-- A member, or a range of two of them. A hyphen before a closing bracket or
another hyphen makes no range. -/
def readRange (f : Flags) (cs : List Char) : Option (CharSet × List Char) := do
  let (first, rest) ← readMember f cs
  let rest := f.skip rest
  let afterHyphen := match rest with
    | '-' :: more => some (f.skip more)
    | _ => none
  let ranged := match afterHyphen with
    | some (']' :: _) => false
    | some ('-' :: _) => false
    | some _ => true
    | none => false
  if rest.isEmpty then none
  else if ranged then
    match first, readMember f (afterHyphen.getD []) with
    | .char a byteA, some (.char b byteB, rest) => do
      let low ← f.bound a byteA
      let high ← f.bound b byteB
      if low ≤ high then return (.range low high, rest) else none
    | _, _ => none
  else
    match first with
    | .char c byte => (f.bound c byte).map fun n => (.range n n, rest)
    | .set s => some (s, rest)
    | .look _ => none

/-- The rest of a class whose bracket has been read; open classes around it
stand on the stack. -/
def readClass (f : Flags) : (fuel : Nat) → OpenClass → List OpenClass → List Char →
    Option (CharSet × List Char)
  | 0, _, _, _ => none
  | fuel + 1, o, stack, cs =>
    match f.skip cs with
    | [] => none
    | '[' :: rest =>
      match readNamedClass f rest with
      | some (s, rest) => readClass f fuel (o.add s) stack rest
      | none =>
        let (inner, rest) := openClass f rest
        readClass f fuel inner (o :: stack) rest
    | ']' :: rest =>
      let s := f.close o.negated (o.total f)
      if !f.unicode && !s.isAscii then none
      else
        match stack with
        | [] => some (s, rest)
        | outer :: stack => readClass f fuel (outer.add s) stack rest
    | '&' :: '&' :: rest => readClass f fuel (o.start f .inter) stack rest
    | '-' :: '-' :: rest => readClass f fuel (o.start f .diff) stack rest
    | '~' :: '~' :: rest => readClass f fuel (o.start f .symmDiff) stack rest
    | cs =>
      match readRange f cs with
      | some (s, rest) => readClass f fuel (o.add s) stack rest
      | none => none

/-! ## Repetition -/

/-- A count: digits with white space around them. -/
def readCount (f : Flags) (cs : List Char) : Option (Option Nat × List Char) :=
  let (digits, rest) := (cs.dropWhile Text.isBlank).span fun c => '0' ≤ c && c ≤ '9'
  let rest := rest.dropWhile Text.isBlank
  let rest := f.skip rest
  match digits with
  | [] => some (none, rest)
  | digits => (Text.readWord? digits).map fun n => (some n.toNat, rest)

/-- The bounds of a counted repetition, behind its brace. -/
def readBounds (f : Flags) (cs : List Char) : Option (Nat × Option Nat × List Char) := do
  let (least, rest) ← readCount f (f.skip cs)
  let least ← least
  match rest with
  | '\x7d' :: rest => return (least, some least, rest)
  | ',' :: rest =>
    match f.skip rest with
    | '\x7d' :: rest => return (least, none, rest)
    | rest => do
      let (most, rest) ← readCount f rest
      let most ← most
      match rest with
      | '\x7d' :: rest => if least ≤ most then return (least, some most, rest) else none
      | _ => none
  | _ => none

/-! ## Groups -/

/-- A part of a sequence: a pattern, or flags, which cannot be repeated. -/
abbrev Part := Option Pattern

/-- A group that is open: the flags around it, and what stands before it in
the group around it. -/
structure OpenGroup where
  flags : Flags
  parts : List Part
  branches : List Pattern

/-- Parts, the last one first, as one pattern. -/
def joinParts (parts : List Part) : Pattern :=
  match parts.reverse.filterMap id with
  | [] => .empty
  | p :: ps => ps.foldl .seq p

/-- Alternatives, the last one first, as one pattern. -/
def joinBranches (last : Pattern) (branches : List Pattern) : Pattern :=
  branches.foldl (fun p b => .either b p) last

/-- The name of a group, up to its angle bracket. -/
def readGroupName (cs : List Char) : Option (String × List Char) :=
  match cs.span (· ≠ '>') with
  | (first :: more, _ :: rest) =>
    if (first = '_' || Text.isAlphabetic first) &&
        more.all fun c => c = '_' || c = '.' || c = '[' || c = ']' || Text.isAlphabetic c ||
          (Text.category c).major = 'N' then
      some (String.ofList (first :: more), rest)
    else none
  | _ => none

/-- How many groups may be open at once. -/
def groupLimit : Nat := 250

/-- A pattern whose parts are being read. -/
structure Reading where
  flags : Flags
  parts : List Part
  branches : List Pattern
  stack : List OpenGroup
  names : List String

/-- Add a part. -/
def Reading.push (r : Reading) (p : Part) : Reading := { r with parts := p :: r.parts }

/-- Open a group under some flags. -/
def Reading.openGroup (r : Reading) (flags : Flags) : Option Reading :=
  if groupLimit ≤ r.stack.length then none
  else some { r with
    flags := flags, parts := [], branches := [], stack := ⟨r.flags, r.parts, r.branches⟩ :: r.stack }

/-- What follows an opening parenthesis. -/
def Reading.group (r : Reading) (cs : List Char) : Option (Reading × List Char) :=
  let named := fun (cs : List Char) => do
    let (name, rest) ← readGroupName cs
    if r.names.contains name then none
    else do
      let r ← r.openGroup r.flags
      return ({ r with names := name :: r.names }, rest)
  match r.flags.skip cs with
  | '?' :: 'P' :: '<' :: rest => named rest
  | '?' :: '<' :: '=' :: _ | '?' :: '<' :: '!' :: _ => none
  | '?' :: '<' :: rest => named rest
  | '?' :: rest => do
    let (flags, seen, mark, rest) ← readFlags r.flags [] rest
    if mark = ')' then
      if seen.isEmpty then none else return ({ r.push none with flags := flags }, rest)
    else return (← r.openGroup flags, rest)
  | cs => (r.openGroup r.flags).map fun r => (r, cs)

/-- Close the innermost group. -/
def Reading.close (r : Reading) : Option Reading :=
  match r.stack with
  | [] => none
  | g :: stack =>
    let inner := joinBranches (joinParts r.parts) r.branches
    some ⟨g.flags, some inner :: g.parts, g.branches, stack, r.names⟩

/-- Repeat the last part. A mark for laziness changes no answer. -/
def Reading.repeat (r : Reading) (least : Nat) (most : Option Nat) (cs : List Char) :
    Option (Reading × List Char) :=
  match r.parts with
  | some p :: parts =>
    let rest := match cs with
      | '?' :: rest => rest
      | cs => cs
    some ({ r with parts := some (.many p least most) :: parts }, rest)
  | _ => none

/-- Any character but a line break, or any at all. -/
def Flags.dot (f : Flags) : Option Pattern :=
  if !f.unicode then none
  else if f.dotAll then some (.one (.complement .empty))
  else if f.crlf then some (.one (.complement (.ranges [(10, 10), (13, 13)])))
  else some (.one (.complement (.only '\n')))

/-- The pattern of an atom. -/
def Flags.atom (f : Flags) : Atom → Option Pattern
  | .char c byte => (f.single c byte).map .one
  | .set s => some (.one s)
  | .look l => some (.look l f.words)

/-- One step of reading: at least one character is taken. -/
def Reading.step (r : Reading) (c : Char) (cs : List Char) : Option (Reading × List Char) :=
  let f := r.flags
  match c with
  | '(' => r.group cs
  | ')' => r.close.map fun r => (r, cs)
  | '|' => some ({ r with parts := [], branches := joinParts r.parts :: r.branches }, cs)
  | '[' => do
    let (o, rest) := openClass f cs
    let (s, rest) ← readClass f (cs.length + 1) o [] rest
    return (r.push (some (.one s)), rest)
  | '?' => r.repeat 0 (some 1) cs
  | '*' => r.repeat 0 none cs
  | '+' => r.repeat 1 none cs
  | '\x7b' =>
    match r.parts with
    | some _ :: _ => do
      let (least, most, rest) ← readBounds f cs
      r.repeat least most (f.skip rest)
    | _ => none
  | '.' => do return (r.push (← f.dot), cs)
  | '^' =>
    let l := if f.multiLine then Look.lineStart f.crlf else .textStart
    some (r.push (some (.look l f.words)), cs)
  | '$' =>
    let l := if f.multiLine then Look.lineEnd f.crlf else .textEnd
    some (r.push (some (.look l f.words)), cs)
  | '\\' => do
    let (a, rest) ← readEscape f cs
    return (r.push (← f.atom a), rest)
  | c => do return (r.push (← f.atom (.char c false)), cs)

/-- Read on, for at most so many steps. -/
def readAll : (fuel : Nat) → Reading → List Char → Option Reading
  | 0, _, _ => none
  | fuel + 1, r, cs =>
    match r.flags.skip cs with
    | [] => some r
    | c :: cs => (r.step c cs).bind fun (r, rest) => readAll fuel r rest

/-- The pattern of a text, read under the usual flags. -/
def ofText? (text : String) : Option Pattern := do
  let cs := text.toList
  let r ← readAll (cs.length + 1) ⟨.usual, [], [], [], []⟩ cs
  if r.stack.isEmpty then some (joinBranches (joinParts r.parts) r.branches) else none

/-- Patterns in this form, for rules to be run with. -/
abbrev engine : Rule.Patterns where
  test? text := (ofText? text).map matchesIn

end ProxyPlan.Pattern
