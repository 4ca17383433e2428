/-
ProxyPlan.Json.Tree — a text as far as it can be understood.

Reading stops at the first thing that is wrong, and what counts as wrong
depends on who reads: a reader that wants a number complains about a string
before it notices that a bracket is missing further on, and a reader that only
skips a value does not mind half a surrogate pair. So a text is first made
into a tree that holds its faults at the places where they stand; a reader
walks the tree in text order and meets them in turn. Nothing follows a broken
place, since no reader gets past one.
-/
import ProxyPlan.Json.Fault
import ProxyPlan.Json.Value

namespace ProxyPlan.Json

/-- How a list or an object ends. -/
inductive Ending where
  | closed
  /-- The closing bracket follows a comma. -/
  | danglingComma
  /-- The text ends after a comma of an object. -/
  | cutAfterComma
  /-- The text ends where a comma or the bracket should stand. -/
  | cut
  /-- Something else stands where a comma or the bracket should stand. -/
  | noSeparator
  /-- Something other than a string stands where a key should stand. -/
  | strayKey (found : Except Fault Shape)
  /-- A key cannot be read: the fault for a reader and for one that skips. -/
  | brokenKey (read skipped : Fault)

/-- A text with its faults in place. -/
inductive Tree where
  | null
  | bool (b : Bool)
  /-- A number that may be too large for any reader but one that skips it. -/
  | number (value : Except Fault Number)
  /-- A string that may hold half a surrogate pair, which skipping passes over. -/
  | text (value : Except Fault String)
  | list (items : List Tree) (ending : Ending)
  | object (fields : List (Except Fault String × Tree)) (ending : Ending)
  /-- The text cannot be understood from here on: the first character of the
  word or numeral that breaks off, if there is one, and the fault for a reader
  and for one that skips. -/
  | broken (begun : Option Char) (read skipped : Fault)

/-! ## What the end of a container means to a reader -/

/-- A reader of list items at the end of a list. -/
def Ending.ofList : Ending → Except Fault Unit
  | .closed => .ok ()
  | .danglingComma => .error .trailingComma
  | .noSeparator => .error .listSeparatorExpected
  | _ => .error .endInList

/-- A reader of fields at the end of an object. -/
def Ending.ofObject : Ending → Except Fault Unit
  | .closed => .ok ()
  | .danglingComma => .error .trailingComma
  | .cutAfterComma => .error .endInValue
  | .cut => .error .endInObject
  | .noSeparator => .error .objectSeparatorExpected
  | .strayKey _ => .error .keyNotText
  | .brokenKey read _ => .error read

/-- A reader that has taken all the items it knows and looks for the bracket. -/
def Ending.ofFullList : Ending → Except Fault Unit
  | .closed => .ok ()
  | .danglingComma => .error .trailingComma
  | .noSeparator => .error .trailingCharacters
  | _ => .error .endInList

/-- Skipping at the end of a list. -/
def Ending.ofSkippedList : Ending → Except Fault Unit
  | .closed => .ok ()
  | .danglingComma => .error .valueExpected
  | .noSeparator => .error .listSeparatorExpected
  | _ => .error .endInList

/-- Skipping at the end of an object. -/
def Ending.ofSkippedObject : Ending → Except Fault Unit
  | .closed => .ok ()
  | .danglingComma => .error .keyNotText
  | .cutAfterComma => .error .endInObject
  | .cut => .error .endInObject
  | .noSeparator => .error .objectSeparatorExpected
  | .strayKey _ => .error .keyNotText
  | .brokenKey _ skipped => .error skipped

namespace Tree

/-! ## Whole values as trees -/

mutual

/-- The tree of a value that is at hand whole. -/
def ofJson : Json → Tree
  | .null => .null
  | .bool b => .bool b
  | .number n => .number (.ok n)
  | .text s => .text (.ok s)
  | .list items => .list (ofItems items) .closed
  | .object fields => .object (ofFields fields) .closed
termination_by structural v => v

/-- The trees of items. -/
def ofItems : List Json → List Tree
  | [] => []
  | v :: rest => ofJson v :: ofItems rest
termination_by structural items => items

/-- The trees of fields. -/
def ofFields : List (String × Json) → List (Except Fault String × Tree)
  | [] => []
  | (name, v) :: rest => (.ok name, ofJson v) :: ofFields rest
termination_by structural fields => fields

end

/-! ## Skipping, and the shape met -/

mutual

/-- Pass over a value nobody wants. -/
def skip : Tree → Except Fault Unit
  | .list items ending => do skipItems items; ending.ofSkippedList
  | .object fields ending => do skipFields fields; ending.ofSkippedObject
  | .broken _ _ skipped => .error skipped
  | .null | .bool _ | .number _ | .text _ => .ok ()
termination_by structural t => t

/-- Pass over items. -/
def skipItems : List Tree → Except Fault Unit
  | [] => .ok ()
  | t :: rest => do skip t; skipItems rest
termination_by structural items => items

/-- Pass over fields, whatever their keys. -/
def skipFields : List (Except Fault String × Tree) → Except Fault Unit
  | [] => .ok ()
  | (_, t) :: rest => do skip t; skipFields rest
termination_by structural fields => fields

end

/-- What stands here, for a reader that wants something else. A list or an
object is known by its bracket; anything else is read first. -/
def shape : Tree → Except Fault Shape
  | .null => .ok .null
  | .bool b => .ok (.boolean b)
  | .number value => value.map .number
  | .text value => value.map .text
  | .list _ _ => .ok .list
  | .object _ _ => .ok .object
  | .broken _ read _ => .error read

/-- The complaint of a reader that wants something else. -/
def mismatch (t : Tree) (wanted : String) : Fault :=
  match t.shape with
  | .ok found => .wrongType found wanted
  | .error fault => fault

end Tree
end ProxyPlan.Json
