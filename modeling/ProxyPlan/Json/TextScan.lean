/-
ProxyPlan.Json.TextScan — a string, one character at a time.

The scan starts after the opening quote. Two readers share it: one that wants
the characters, and one that only looks for the closing quote and therefore
accepts surrogates that do not pair. A surrogate fault is noted and the scan
goes on; every other fault ends it for both.
-/
import ProxyPlan.Json.Fault
import ProxyPlan.Text.Digit

namespace ProxyPlan.Json

/-- Four hexadecimal digits in the making: the bytes seen, and the value while
all of them are digits. -/
structure HexScan where
  bytes : Nat
  value : Option Nat

/-- No digit yet. -/
def HexScan.start : HexScan := ⟨0, some 0⟩

/-- Take one character. The text must hold four more bytes whatever they are,
so a wrong digit is reported only once they have been seen. -/
def HexScan.push (h : HexScan) (c : Char) : HexScan :=
  ⟨h.bytes + c.utf8Size, h.value.bind fun v => (Text.hexValue? c).map fun d => 16 * v + d⟩

/-- Where in a string the scan stands. -/
inductive TextPlace where
  | plain
  | escape
  | unit (digits : HexScan)
  /-- After a leading surrogate, before the backslash of its partner. -/
  | pairSlash (high : Nat)
  /-- After that backslash. -/
  | pairLetter (high : Nat)
  | pairUnit (high : Nat) (digits : HexScan)

/-- A string in the making: its characters so far, last first, and the first
fault that a reader of the characters minds. -/
structure TextScan where
  done : List Char
  fault : Option Fault
  place : TextPlace

/-- What one more character makes of a string. -/
inductive TextStep where
  | more (scan : TextScan)
  | closed (value : Except Fault String)
  | broken (read skipped : Fault)

namespace TextScan

/-- Just after the opening quote. -/
def start : TextScan := ⟨[], none, .plain⟩

/-- The string that has been closed. -/
def value (t : TextScan) : Except Fault String :=
  match t.fault with
  | none => .ok (String.ofList t.done.reverse)
  | some fault => .error fault

/-- The scan ends here for every reader. -/
def fail (t : TextScan) (fault : Fault) : TextStep :=
  .broken (t.fault.getD fault) fault

/-- Add a character and go on in plain text. -/
def push (t : TextScan) (c : Char) : TextScan :=
  ⟨c :: t.done, t.fault, .plain⟩

/-- Note a fault that skipping passes over, unless one is noted already. -/
def note (t : TextScan) (fault : Fault) : TextScan :=
  ⟨t.done, some (t.fault.getD fault), .plain⟩

/-- A leading surrogate: the first unit of a pair. -/
def isLeading (u : Nat) : Bool := 0xD800 ≤ u && u ≤ 0xDBFF

/-- A trailing surrogate: the second unit of a pair. -/
def isTrailing (u : Nat) : Bool := 0xDC00 ≤ u && u ≤ 0xDFFF

/-- The character of a surrogate pair. -/
def pairChar (high low : Nat) : Char :=
  Char.ofNat (0x10000 + (high - 0xD800) * 0x400 + (low - 0xDC00))

/-- One character of plain text. -/
def plainStep (t : TextScan) (c : Char) : TextStep :=
  if c = '"' then .closed t.value
  else if c = '\\' then .more { t with place := .escape }
  else if c.toNat < 0x20 then t.fail .controlCharacter
  else .more (t.push c)

/-- The character after a backslash. -/
def escapeStep (t : TextScan) (c : Char) : TextStep :=
  match c with
  | '"' => .more (t.push '"')
  | '\\' => .more (t.push '\\')
  | '/' => .more (t.push '/')
  | 'b' => .more (t.push '\x08')
  | 'f' => .more (t.push '\x0c')
  | 'n' => .more (t.push '\n')
  | 'r' => .more (t.push '\r')
  | 't' => .more (t.push '\t')
  | 'u' => .more { t with place := .unit .start }
  | _ => t.fail .malformedEscape

/-- A code unit that stands alone or opens a pair. -/
def takeUnit (t : TextScan) (u : Nat) : TextScan :=
  if isTrailing u then t.note .loneSurrogate
  else if isLeading u then { t with place := .pairSlash u }
  else t.push (Char.ofNat u)

/-- A code unit after a leading surrogate. -/
def takePartner (t : TextScan) (high low : Nat) : TextScan :=
  if isTrailing low then t.push (pairChar high low) else t.note .loneSurrogate

/-- Take a character into four digits; when all four bytes are there, go on
with the unit they spell. -/
def unitStep (t : TextScan) (digits : HexScan) (c : Char) (again : HexScan → TextPlace)
    (take : Nat → TextScan) : TextStep :=
  let digits := digits.push c
  if digits.bytes < 4 then .more { t with place := again digits }
  else
    match digits.value with
    | some u => .more (take u)
    | none => t.fail .malformedEscape

/-- One more character of a string. -/
def step (t : TextScan) (c : Char) : TextStep :=
  match t.place with
  | .plain => t.plainStep c
  | .escape => t.escapeStep c
  | .unit digits => t.unitStep digits c .unit t.takeUnit
  | .pairSlash high =>
    if c = '\\' then .more { t with place := .pairLetter high }
    else (t.note .halfSurrogatePair).plainStep c
  | .pairLetter high =>
    if c = 'u' then .more { t with place := .pairUnit high .start }
    else (t.note .halfSurrogatePair).escapeStep c
  | .pairUnit high digits => t.unitStep digits c (.pairUnit high) (t.takePartner high)

/-- The faults of a string that the text ends in. -/
def cut (t : TextScan) : Fault × Fault :=
  (t.fault.getD .endInText, .endInText)

end TextScan
end ProxyPlan.Json
