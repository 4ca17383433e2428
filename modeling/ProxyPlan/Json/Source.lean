/-
ProxyPlan.Json.Source — where a reader takes its values from.

A value is read straight from a text, out of the body of a node (which has
been read whole before its kind was settled on), or out of a settled value.
The three agree on every well-formed value; they differ in how deep they go
and in what they call a list that is too long.
-/
import ProxyPlan.Json.Tree

namespace ProxyPlan.Json

/-- Where a reader takes its values from. -/
inductive Source where
  /-- Straight from a text, in which one container less than `room` may still
  be entered. -/
  | text (room : Nat)
  | body
  | value
deriving DecidableEq

/-- How deep containers may nest in a text, and one more. -/
def depthLimit : Nat := 128

/-- A text from its beginning. -/
def Source.start : Source := .text depthLimit

/-- Enter a list or an object. -/
def Source.enter : Source → Except Fault Source
  | .text (room + 2) => .ok (.text (room + 1))
  | .text _ => .error .tooDeep
  | .body => .ok .body
  | .value => .ok .value

namespace Tree

mutual

/-- Read a value whole, as it is written. -/
def whole : Tree → Source → Except Fault Json
  | .null, _ => .ok .null
  | .bool b, _ => .ok (.bool b)
  | .number value, _ => value.map .number
  | .text value, _ => value.map .text
  | .list items ending, source => do
    let source ← source.enter
    let values ← wholeItems items source
    ending.ofList
    return .list values
  | .object fields ending, source => do
    let source ← source.enter
    let values ← wholeFields fields source
    ending.ofObject
    return .object values
  | .broken _ read _, _ => .error read
termination_by structural t => t

/-- Read items whole. -/
def wholeItems : List Tree → Source → Except Fault (List Json)
  | [], _ => .ok []
  | t :: rest, source => do
    let v ← whole t source
    let vs ← wholeItems rest source
    return v :: vs
termination_by structural items => items

/-- Read fields whole, each with its key. -/
def wholeFields : List (Except Fault String × Tree) → Source → Except Fault (List (String × Json))
  | [], _ => .ok []
  | (key, t) :: rest, source => do
    let name ← key
    let v ← whole t source
    let vs ← wholeFields rest source
    return (name, v) :: vs
termination_by structural fields => fields

end

/-- A text read as a settled value, with nothing after it. -/
def settled (t : Tree) (source : Source) : Except Fault Json :=
  (t.whole source).map Json.settle

end Tree
end ProxyPlan.Json
