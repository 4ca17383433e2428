/-
ProxyPlan.Json.Value — JSON values.

An object keeps its fields in the order they were written, repeated names
included, because reading a typed record reports a repeated field. Where a
value is kept for its own sake (free-form settings, a document before it is
taken apart) it is `settled` first: names in increasing order, of several
fields with one name the last.
-/
import ProxyPlan.Number.Shortest

namespace ProxyPlan

/-- A JSON value; fields in written order. -/
inductive Json where
  | null
  | bool (b : Bool)
  | number (n : Number)
  | text (s : String)
  | list (items : List Json)
  | object (fields : List (String × Json))

namespace Json

/-- A whole number as a value. -/
def nat (n : Nat) : Json := .number (.integer n)

/-- An object of one field. -/
def single (name : String) (value : Json) : Json := .object [(name, value)]

/-- The value that stands for nothing. -/
def isNull : Json → Bool
  | .null => true
  | _ => false

/-! ## Settled values -/

/-- Put a field into fields in increasing order of names; a field of the same
name that is already there stays. -/
def insertField (name : String) (value : Json) : List (String × Json) → List (String × Json)
  | [] => [(name, value)]
  | (other, kept) :: rest =>
    if name < other then (name, value) :: (other, kept) :: rest
    else if name = other then (other, kept) :: rest
    else (other, kept) :: insertField name value rest

mutual

/-- Every object in increasing order of names, the last field of a name counting. -/
def settle : Json → Json
  | .list items => .list (settleItems items)
  | .object fields => .object (settleFields fields)
  | .null => .null
  | .bool b => .bool b
  | .number n => .number n
  | .text s => .text s
termination_by structural v => v

/-- Settle each item. -/
def settleItems : List Json → List Json
  | [] => []
  | v :: rest => settle v :: settleItems rest
termination_by structural items => items

/-- Settle each field and put it in its place, later fields first. -/
def settleFields : List (String × Json) → List (String × Json)
  | [] => []
  | (name, v) :: rest => insertField name (settle v) (settleFields rest)
termination_by structural fields => fields

end

/-! ## Looking into a value -/

/-- The value of a field of an object. -/
def get? (name : String) : Json → Option Json
  | .object fields => fields.lookup name
  | _ => none

/-- The items of a list. -/
def items? : Json → Option (List Json)
  | .list items => some items
  | _ => none

/-- The text of a string. -/
def text? : Json → Option String
  | .text s => some s
  | _ => none

/-- A whole number that is not negative. -/
def nat? : Json → Option Nat
  | .number (.integer (.ofNat n)) => some n
  | _ => none

end Json
end ProxyPlan
