/-
ProxyPlan.Text.Quoted — a text shown inside a message.

The quoted form is one line whatever the text holds: quotes and backslashes
are escaped, the usual controls get their short escapes, and whatever would
not show as itself is written by its code point.
-/
import ProxyPlan.Text.Category

namespace ProxyPlan.Text

/-- The escape for a code point: its hexadecimal digits between braces. -/
def codePointEscape (c : Char) : List Char :=
  ['\\', 'u', '\x7b'] ++ Nat.toDigits 16 c.toNat ++ ['\x7d']

/-- One character of the quoted form. -/
def quotedChar (c : Char) : List Char :=
  match c with
  | '"' => ['\\', '"']
  | '\\' => ['\\', '\\']
  | '\n' => ['\\', 'n']
  | '\r' => ['\\', 'r']
  | '\t' => ['\\', 't']
  | c =>
    if c = Char.ofNat 0 then ['\\', '0']
    else if isExtender c || !isPrintable c then codePointEscape c
    else [c]

/-- A text between double quotes, on one line. -/
def quoted (s : String) : String :=
  String.ofList ('"' :: s.toList.flatMap quotedChar ++ ['"'])

end ProxyPlan.Text
