/-
ProxyPlan.Json.Naming — types whose values are known by name.

A protocol, a strategy or the kind of a node is one of a few names. The names
are given once, and reading, looking up and listing them all go through the
same table. As a value such a name is a string, or an object whose one key is
the name and whose value is null.
-/
import ProxyPlan.Json.Codec

namespace ProxyPlan.Json

/-- The values of a type and the name of each. -/
structure Naming (κ : Type) where
  all : List κ
  name : κ → String

namespace Naming

variable {κ : Type}

/-- All names, in order. -/
def names (n : Naming κ) : List String := n.all.map n.name

/-- The value of a name. -/
def find? (n : Naming κ) (name : String) : Option κ :=
  n.all.find? fun k => n.name k == name

/-- The value of a name, or a complaint that lists the known ones. -/
def find (n : Naming κ) (name : String) : Except Fault κ :=
  match n.find? name with
  | some k => .ok k
  | none => .error (.unknownName name n.names)

/-- A name in the place of a kind. -/
def readKind (n : Naming κ) (t : Tree) : Except Fault κ :=
  match t with
  | .text value => do n.find (← value)
  | t => .error (t.mismatch "variant identifier")

/-- The value that goes with a name used as a key: nothing. -/
def readNothing (emptyObjectToo : Bool) (t : Tree) : Except Fault Unit :=
  match t with
  | .null => .ok ()
  | .object [] .closed => if emptyObjectToo then .ok () else .error (.wrongType .object "unit")
  | t => .error (t.mismatch "unit")

/-- A name written as an object in a text. -/
def readKeyInText (n : Naming κ) : List (Except Fault String × Tree) → Ending → Except Fault κ
  | [], .strayKey found =>
    match found with
    | .ok shape => .error (.wrongType shape "variant identifier")
    | .error fault => .error fault
  | [], .brokenKey read _ => .error read
  | [], .cut => .error .endInValue
  | [], _ => .error .valueExpected
  | (key, t) :: rest, ending => do
    let k ← n.find (← key)
    readNothing false t
    match rest, ending with
    | [], .closed => .ok k
    | [], .cut => .error .endInObject
    | _, _ => .error .valueExpected

/-- A name written as an object in a value that is at hand whole. -/
def readKeyInValue (n : Naming κ) (emptyObjectToo : Bool) :
    List (Except Fault String × Tree) → Except Fault κ
  | [(key, t)] => do
    let k ← n.find (← key)
    readNothing emptyObjectToo t
    return k
  | _ => .error (.wrongValue .object "map with a single key")

/-- Names as values. -/
def codec (n : Naming κ) : Codec κ where
  read source t :=
    match source, t with
    | _, .text value => do n.find (← value)
    | .text _, .object fields ending => do
      let _ ← source.enter
      n.readKeyInText fields ending
    | .body, .object fields _ => n.readKeyInValue true fields
    | .value, .object fields _ => n.readKeyInValue false fields
    | .text _, .broken none read _ => .error read
    | .text _, _ => .error .valueExpected
    | _, t => .error (t.mismatch "string or map")
  write k := .text (n.name k)

end Naming
end ProxyPlan.Json
