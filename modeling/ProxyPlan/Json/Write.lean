/-
ProxyPlan.Json.Write — values as text.

Two layouts share one spelling of strings and numbers: the compact one without
any white space, and the one for files, indented by two spaces, in which empty
containers stay on their line.
-/
import ProxyPlan.Json.Value

namespace ProxyPlan.Json

/-! ## Strings -/

/-- One character inside a string. -/
def writeChar (c : Char) : List Char :=
  match c with
  | '"' => ['\\', '"']
  | '\\' => ['\\', '\\']
  | '\x08' => ['\\', 'b']
  | '\x0c' => ['\\', 'f']
  | '\n' => ['\\', 'n']
  | '\r' => ['\\', 'r']
  | '\t' => ['\\', 't']
  | c =>
    if c.toNat < 0x20 then
      ['\\', 'u', '0', '0', Text.hexDigit (c.toNat / 16), Text.hexDigit (c.toNat % 16)]
    else [c]

/-- A string between its quotes. -/
def writeText (s : String) : List Char :=
  '"' :: s.toList.flatMap writeChar ++ ['"']

/-- A value without parts. -/
def writeBool : Bool → List Char
  | true => ['t', 'r', 'u', 'e']
  | false => ['f', 'a', 'l', 's', 'e']

/-- A number. -/
def writeNumber (n : Number) : List Char :=
  (Number.render n).toList

/-! ## The compact layout -/

mutual

/-- A value without white space. -/
def compact : Json → List Char
  | .null => ['n', 'u', 'l', 'l']
  | .bool b => writeBool b
  | .number n => writeNumber n
  | .text s => writeText s
  | .list [] => ['[', ']']
  | .list (v :: rest) => '[' :: compact v ++ compactItems rest
  | .object [] => ['\x7b', '\x7d']
  | .object ((name, v) :: rest) =>
    '\x7b' :: writeText name ++ ':' :: compact v ++ compactFields rest

/-- The items after the first, and the bracket. -/
def compactItems : List Json → List Char
  | [] => [']']
  | v :: rest => ',' :: compact v ++ compactItems rest

/-- The fields after the first, and the brace. -/
def compactFields : List (String × Json) → List Char
  | [] => ['\x7d']
  | (name, v) :: rest => ',' :: writeText name ++ ':' :: compact v ++ compactFields rest

end

/-! ## The layout of files -/

/-- A new line, indented by two spaces a level. -/
def newLine (level : Nat) : List Char :=
  '\n' :: List.replicate (2 * level) ' '

mutual

/-- A value over several lines, at a level of indentation. -/
def indented (level : Nat) : Json → List Char
  | .null => ['n', 'u', 'l', 'l']
  | .bool b => writeBool b
  | .number n => writeNumber n
  | .text s => writeText s
  | .list [] => ['[', ']']
  | .list (v :: rest) =>
    '[' :: newLine (level + 1) ++ indented (level + 1) v ++ indentedItems level rest
  | .object [] => ['\x7b', '\x7d']
  | .object ((name, v) :: rest) =>
    '\x7b' :: newLine (level + 1) ++ writeText name ++ [':', ' '] ++ indented (level + 1) v ++
      indentedFields level rest

/-- The items after the first, and the bracket. -/
def indentedItems (level : Nat) : List Json → List Char
  | [] => newLine level ++ [']']
  | v :: rest =>
    ',' :: newLine (level + 1) ++ indented (level + 1) v ++ indentedItems level rest

/-- The fields after the first, and the brace. -/
def indentedFields (level : Nat) : List (String × Json) → List Char
  | [] => newLine level ++ ['\x7d']
  | (name, v) :: rest =>
    ',' :: newLine (level + 1) ++ writeText name ++ [':', ' '] ++ indented (level + 1) v ++
      indentedFields level rest

end

/-- The compact text of a value. -/
def toText (v : Json) : String := String.ofList (compact v)

/-- The text of a value over several lines, without the final line break. -/
def toLines (v : Json) : String := String.ofList (indented 0 v)

end ProxyPlan.Json
