/-
ProxyPlan.Text.Digit — decimal digits and the numerals made of them.

Two readings of "digit" occur. The form of a port list admits the digits of
every script (`isDecimal`), but its numbers are read from ASCII digits alone
(`readNat?`). So a list may be well formed and still have an entry that is not
read and matches no port (`Rule.accepted_unread`).
-/
namespace ProxyPlan.Text

/-- First members of the runs of decimal digits (general category `Nd`), each
run counting from zero to nine. -/
def decimalZeros : List Nat :=
  [0x30, 0x660, 0x6F0, 0x7C0, 0x966, 0x9E6, 0xA66, 0xAE6, 0xB66, 0xBE6, 0xC66, 0xCE6, 0xD66,
   0xDE6, 0xE50, 0xED0, 0xF20, 0x1040, 0x1090, 0x17E0, 0x1810, 0x1946, 0x19D0, 0x1A80, 0x1A90,
   0x1B50, 0x1BB0, 0x1C40, 0x1C50, 0xA620, 0xA8D0, 0xA900, 0xA9D0, 0xA9F0, 0xAA50, 0xABF0,
   0xFF10, 0x104A0, 0x10D30, 0x10D40, 0x11066, 0x110F0, 0x11136, 0x111D0, 0x112F0, 0x11450,
   0x114D0, 0x11650, 0x116C0, 0x116D0, 0x116DA, 0x11730, 0x118E0, 0x11950, 0x11BF0, 0x11C50,
   0x11D50, 0x11DA0, 0x11F50, 0x16A60, 0x16AC0, 0x16B50, 0x16D70, 0x1CCF0, 0x1D7CE, 0x1D7D8,
   0x1D7E2, 0x1D7EC, 0x1D7F6, 0x1E140, 0x1E2F0, 0x1E4F0, 0x1E5F1, 0x1E950, 0x1FBF0]

/-- A decimal digit of any script. -/
def isDecimal (c : Char) : Bool :=
  decimalZeros.any fun first => first ≤ c.toNat && c.toNat < first + 10

/-- The value of an ASCII digit. -/
def digitValue? (c : Char) : Option Nat :=
  if '0' ≤ c ∧ c ≤ '9' then some (c.toNat - 48) else none

/-- Digits read onto a number that is already there. -/
def readDigits? (sofar : Nat) : List Char → Option Nat
  | [] => some sofar
  | c :: cs => (digitValue? c).bind fun d => readDigits? (10 * sofar + d) cs

/-- The number spelled by one or more ASCII digits. -/
def readNat? : List Char → Option Nat
  | [] => none
  | cs => readDigits? 0 cs

/-- A number of at most thirty-two bits. -/
def word? (n : Nat) : Option UInt32 :=
  if n < Nat.pow 2 32 then some (.ofNat n) else none

/-- A 32-bit number: ASCII digits, after one plus sign if there is one. -/
def readWord? : List Char → Option UInt32
  | '+' :: cs => (readNat? cs).bind word?
  | cs => (readNat? cs).bind word?

/-- The decimal digits of a number, without leading zeros. -/
def decimal (n : Nat) : List Char :=
  Nat.toDigits 10 n

/-- The lower-case hexadecimal digit of a number below sixteen. -/
def hexDigit (n : Nat) : Char :=
  if n < 10 then Char.ofNat (48 + n) else Char.ofNat (87 + n)

/-- The value of a hexadecimal digit of either case. -/
def hexValue? (c : Char) : Option Nat :=
  if '0' ≤ c ∧ c ≤ '9' then some (c.toNat - 48)
  else if 'a' ≤ c ∧ c ≤ 'f' then some (c.toNat - 87)
  else if 'A' ≤ c ∧ c ≤ 'F' then some (c.toNat - 55)
  else none

end ProxyPlan.Text
