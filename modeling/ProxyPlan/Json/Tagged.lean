/-
ProxyPlan.Json.Tagged — values of several kinds, the kind named in a field.

The field that names the kind may stand anywhere in the object, so the other
fields are read whole and only then given to the reader of the kind. The kind
itself is settled as soon as its field is met. Written as a list, such a value
has its kind first.
-/
import ProxyPlan.Json.Naming
import ProxyPlan.Json.Record

namespace ProxyPlan.Json

/-- Divide the fields of an object into the kind and the others, read whole. -/
def divideKind {κ : Type} (source : Source) (field : String) (kinds : Naming κ) :
    List (Except Fault String × Tree) → Option κ → Except Fault (Option κ × List (String × Json))
  | [], kind => .ok (kind, [])
  | (key, t) :: more, kind => do
    let name ← key
    if name = field then
      match kind with
      | some _ => .error (.repeatedField field)
      | none => do
        let k ← kinds.readKind t
        divideKind source field kinds more (some k)
    else do
      let v ← t.whole source
      let (kind, others) ← divideKind source field kinds more kind
      return (kind, (name, v) :: others)

/-- Values whose kind is named in `field`; `body` reads and writes the rest of
a value of each kind. -/
def Codec.tagged {α κ : Type} (name field : String) (kinds : Naming κ) (kindOf : α → κ)
    (body : κ → Codec α) : Codec α where
  read source t :=
    match t with
    | .object entries ending => do
      let source ← source.enter
      let (kind, others) ← divideKind source field kinds entries none
      ending.ofObject
      match kind with
      | none => .error (.missingField field)
      | some k => (body k).read .body (.ofJson (.object others))
    | .list [] ending => do
      let _ ← source.enter
      ending.ofList
      .error (.missingField field)
    | .list (first :: items) ending => do
      let source ← source.enter
      let k ← kinds.readKind first
      let values ← Tree.wholeItems items source
      ending.ofList
      (body k).read .body (.ofJson (.list values))
    | t => .error (t.mismatch ("internally tagged enum " ++ name))
  write x :=
    match (body (kindOf x)).write x with
    | .object fields => .object ((field, .text (kinds.name (kindOf x))) :: fields)
    | v => v

end ProxyPlan.Json
