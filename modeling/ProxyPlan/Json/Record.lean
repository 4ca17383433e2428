/-
ProxyPlan.Json.Record — records: named fields, read by name or by position.

A record is described by its fields in order. It may be written as an object,
whose unknown fields are passed over and whose fields may not repeat, or as a
list of the values in order, the end of which may be missing as far as its
fields have values for their absence. It is always written as an object, and a
field may be left out where its absence means the value it has.
-/
import ProxyPlan.Json.Codec

namespace ProxyPlan.Json

/-- The fields of a record with parts of the types in the product. -/
inductive Fields : Type → Type 1 where
  | done : Fields Unit
  /-- A field: its name, its codec, its value when absent (a field without one
  is required), and when writing leaves it out. -/
  | field {α ρ : Type} (name : String) (codec : Codec α) (absent : Option α) (omits : α → Bool)
      (rest : Fields ρ) : Fields (α × ρ)

namespace Fields

/-! ## Describing fields -/

/-- A field that must be there. -/
def required {α ρ : Type} (name : String) (codec : Codec α) (rest : Fields ρ) : Fields (α × ρ) :=
  .field name codec none (fun _ => false) rest

/-- A field that may be absent and is always written. -/
def defaulting {α ρ : Type} (name : String) (codec : Codec α) (absent : α) (rest : Fields ρ) :
    Fields (α × ρ) :=
  .field name codec (some absent) (fun _ => false) rest

/-- A field that is written only if it has a value. -/
def optional {α ρ : Type} (name : String) (codec : Codec α) (rest : Fields ρ) :
    Fields (Option α × ρ) :=
  .field name (.option codec) (some none) Option.isNone rest

/-- A list that is written only if it has items. -/
def items {α ρ : Type} (name : String) (codec : Codec α) (rest : Fields ρ) :
    Fields (List α × ρ) :=
  .field name (.list codec) (some []) List.isEmpty rest

/-! ## Reading by name -/

/-- What has been read of a record so far. -/
def Slots : {ρ : Type} → Fields ρ → Type
  | _, .done => Unit
  | _, .field (α := α) _ _ _ _ rest => Option α × rest.Slots

/-- Nothing read yet. -/
def blank : {ρ : Type} → (f : Fields ρ) → f.Slots
  | _, .done => ()
  | _, .field _ _ _ _ rest => (none, rest.blank)

/-- The names of the fields. -/
def names : {ρ : Type} → Fields ρ → List String
  | _, .done => []
  | _, .field name _ _ _ rest => name :: rest.names

/-- Read the value of a key into its field; `none` if no field has this name. -/
def put (source : Source) (key : String) (t : Tree) :
    {ρ : Type} → (f : Fields ρ) → f.Slots → Except Fault (Option f.Slots)
  | _, .done, _ => .ok none
  | _, .field name codec _ _ rest, slots =>
    if key = name then
      match slots.1 with
      | some _ => .error (.repeatedField name)
      | none => (codec.read source t).map fun x => some (some x, slots.2)
    else
      (rest.put source key t slots.2).map fun found => found.map fun others => (slots.1, others)

/-- Read the fields of an object one after the other, passing over unknown ones. -/
def readFields (source : Source) {ρ : Type} (f : Fields ρ) :
    List (Except Fault String × Tree) → f.Slots → Except Fault f.Slots
  | [], slots => .ok slots
  | (key, t) :: more, slots => do
    let name ← key
    match ← f.put source name t slots with
    | some slots => f.readFields source more slots
    | none => do
      t.skip
      f.readFields source more slots

/-- The parts of the record, absent fields filled in. -/
def finish : {ρ : Type} → (f : Fields ρ) → f.Slots → Except Fault ρ
  | _, .done, _ => .ok ()
  | _, .field name _ absent _ rest, slots => do
    let x ← match slots.1, absent with
      | some x, _ => .ok x
      | none, some d => .ok d
      | none, none => .error (.missingField name)
    let xs ← rest.finish slots.2
    return (x, xs)

/-! ## Reading by position -/

/-- A number of elements. -/
def elements (n : Nat) : String :=
  if n = 1 then "1 element" else toString n ++ " elements"

/-- Read values in the order of the fields, counting from `index`; the second
part is what no field was left for. `wanted` says what the list stands for. -/
def readItems (source : Source) (wanted : String) (ending : Ending) :
    {ρ : Type} → (f : Fields ρ) → (index : Nat) → List Tree → Except Fault (ρ × List Tree)
  | _, .done, _, items => .ok ((), items)
  | _, .field _ codec _ _ rest, index, t :: items => do
    let x ← codec.read source t
    let (xs, left) ← rest.readItems source wanted ending (index + 1) items
    return ((x, xs), left)
  | _, .field _ _ absent _ rest, index, [] => do
    ending.ofList
    match absent with
    | none => .error (.wrongLength index wanted)
    | some d => do
      let (xs, left) ← rest.readItems source wanted ending (index + 1) []
      return ((d, xs), left)

/-- The end of a list from which all fields have been read. -/
def checkLeft (source : Source) (fields total : Nat) (ending : Ending) (left : List Tree) :
    Except Fault Unit :=
  match source, left with
  | .text _, [] => ending.ofFullList
  | .text _, _ :: _ => .error .trailingCharacters
  | _, [] => .ok ()
  | .body, _ :: _ => .error (.wrongLength total (elements fields ++ " in sequence"))
  | .value, _ :: _ => .error (.wrongLength total "fewer elements in array")

/-! ## Writing -/

/-- The fields that are not left out, in order. -/
def write : {ρ : Type} → Fields ρ → ρ → List (String × Json)
  | _, .done, _ => []
  | _, .field name codec _ omits rest, (x, xs) =>
    if omits x then rest.write xs else (name, codec.write x) :: rest.write xs

end Fields

namespace Codec

/-- A record called `name`, made of its parts and taken apart into them. -/
def record {α ρ : Type} (name : String) (fields : Fields ρ) (make : ρ → α) (parts : α → ρ) :
    Codec α where
  read source t :=
    let wanted := "struct " ++ name
    match t with
    | .object entries ending => do
      let source ← source.enter
      let slots ← fields.readFields source entries fields.blank
      ending.ofObject
      return make (← fields.finish slots)
    | .list items ending => do
      let source ← source.enter
      let count := fields.names.length
      let (xs, left) ← fields.readItems source
        (wanted ++ " with " ++ Fields.elements count) ending 0 items
      Fields.checkLeft source count items.length ending left
      return make xs
    | t => .error (t.mismatch wanted)
  write x := .object (fields.write (parts x))

/-- Divide the fields of an object into those of `own` and the others, which
are read whole. -/
def divide {ρ : Type} (source : Source) (own : Fields ρ) :
    List (Except Fault String × Tree) → own.Slots →
      Except Fault (own.Slots × List (String × Json))
  | [], slots => .ok (slots, [])
  | (key, t) :: more, slots => do
    let name ← key
    match ← own.put source name t slots with
    | some slots => divide source own more slots
    | none => do
      let v ← t.whole source
      let (slots, others) ← divide source own more slots
      return (slots, (name, v) :: others)

/-- A record whose object also holds the fields of an inner record: the own
fields are read first, then the inner ones out of the others. -/
def flattened {α ρ σ : Type} (name : String) (own : Fields ρ) (inner : Fields σ)
    (make : ρ × σ → α) (parts : α → ρ × σ) : Codec α where
  read source t :=
    match t with
    | .object entries ending => do
      let source ← source.enter
      let (slots, others) ← divide source own entries own.blank
      ending.ofObject
      let xs ← own.finish slots
      let slots ← inner.readFields .body (Tree.ofFields others) inner.blank
      return make (xs, ← inner.finish slots)
    | t => .error (t.mismatch ("struct " ++ name))
  write x := .object (own.write (parts x).1 ++ inner.write (parts x).2)

end Codec
end ProxyPlan.Json
