/-
ProxyPlan.Json.Codec — a type together with the way it is read and written.

A codec pairs the two directions, so that the format of a type is stated once,
and codecs of larger types are built from those of their parts. Several forms
of a value may be read; only one is ever written.
-/
import ProxyPlan.Json.Scan
import ProxyPlan.Json.Source

namespace ProxyPlan.Json

/-- How values of a type are read and written. -/
structure Codec (α : Type) where
  read : Source → Tree → Except Fault α
  write : α → Json

/-- Read a whole text: a value, and nothing after it. -/
def Codec.readText {α : Type} (c : Codec α) (text : String) : Except Fault α := do
  let s := scan text
  let x ← c.read .start s.finish
  if s.hasTrailing then .error .trailingCharacters else .ok x

/-- Read out of a settled value. -/
def Codec.readValue {α : Type} (c : Codec α) (v : Json) : Except Fault α :=
  c.read .value (.ofJson v)

namespace Codec

/-! ## Plain values -/

/-- Strings. -/
def text : Codec String where
  read _ t :=
    match t with
    | .text value => value
    | t => .error (t.mismatch "a string")
  write := .text

/-- Truth values. -/
def bool : Codec Bool where
  read _ t :=
    match t with
    | .bool b => .ok b
    | t => .error (t.mismatch "a boolean")
  write := .bool

/-- Whole numbers from zero below a limit. -/
def readBelow (limit : Nat) (wanted : String) (t : Tree) : Except Fault Nat :=
  match t with
  | .number (.ok (.integer i)) =>
    if 0 ≤ i ∧ i < limit then .ok i.toNat else .error (.wrongValue (.number (.integer i)) wanted)
  | t => .error (t.mismatch wanted)

/-- Numbers of sixteen bits. -/
def word16 : Codec UInt16 where
  read _ t := (readBelow (Nat.pow 2 16) "u16" t).map UInt16.ofNat
  write n := .nat n.toNat

/-- Numbers of thirty-two bits. -/
def word32 : Codec UInt32 where
  read _ t := (readBelow (Nat.pow 2 32) "u32" t).map UInt32.ofNat
  write n := .nat n.toNat

/-- Binary numbers; an integer is read as the nearest one. -/
def real : Codec Number.Binary64 where
  read _ t :=
    match t with
    | .number (.ok (.integer i)) => .ok (.ofInt i)
    | .number (.ok (.real x)) => .ok x
    | t => .error (t.mismatch "f64")
  write x := .number (.real x)

/-- Any value, settled. -/
def anything : Codec Json where
  read source t := t.settled source
  write v := v

/-- Part of the values of a type: those that `out` finds a part in. -/
def part {α β : Type} (c : Codec β) (into : β → α) (out : α → Option β) : Codec α where
  read source t := (c.read source t).map into
  write x :=
    match out x with
    | some y => c.write y
    | none => .null

/-! ## Options and lists -/

/-- A value or null. -/
def option {α : Type} (c : Codec α) : Codec (Option α) where
  read source t :=
    match t with
    | .null => .ok none
    | .broken (some 'n') fault _ => .error fault
    | t => (c.read source t).map some
  write
    | none => .null
    | some x => c.write x

/-- Read items one after the other. -/
def readAll {α : Type} (c : Codec α) (source : Source) : List Tree → Except Fault (List α)
  | [] => .ok []
  | t :: rest => do
    let x ← c.read source t
    let xs ← readAll c source rest
    return x :: xs

/-- Lists. -/
def list {α : Type} (c : Codec α) : Codec (List α) where
  read source t :=
    match t with
    | .list items ending => do
      let source ← source.enter
      let xs ← c.readAll source items
      ending.ofList
      return xs
    | t => .error (t.mismatch "a sequence")
  write xs := .list (xs.map c.write)

end Codec
end ProxyPlan.Json
