/-
ProxyPlan.Pattern.Basic — patterns and what they match.

A pattern sends a place in a text to the places where a match that starts
there may end. Whether the text has a match at all depends on nothing else, so
neither the order in which alternatives are tried nor greediness appears here.
Repetition goes on only while it reaches new places, of which there are at
most as many as the text has.
-/
import ProxyPlan.Pattern.CharSet

namespace ProxyPlan

/-- Conditions on a place that consume nothing. -/
inductive Pattern.Look where
  | textStart
  | textEnd
  /-- The start of a line; if `crlf`, a carriage return ends lines too. -/
  | lineStart (crlf : Bool)
  | lineEnd (crlf : Bool)
  | wordEdge
  | noWordEdge
  | wordStart
  | wordEnd
  /-- No word character comes before. -/
  | wordStartHalf
  /-- No word character follows. -/
  | wordEndHalf
deriving DecidableEq

/-- A pattern. Conditions on words say which characters make them. -/
inductive Pattern where
  | empty
  | one (set : Pattern.CharSet)
  | look (condition : Pattern.Look) (words : Pattern.CharSet)
  | seq (p q : Pattern)
  | either (p q : Pattern)
  | many (p : Pattern) (least : Nat) (most : Option Nat)

namespace Pattern

/-- A condition holds between two neighbours; a missing one is the text's end. -/
def Look.holds (l : Look) (words : CharSet) (before after : Option Char) : Bool :=
  let inWord := fun (c : Option Char) => c.any fun c => words.holds c.toNat
  match l with
  | .textStart => before.isNone
  | .textEnd => after.isNone
  | .lineStart false => before.isNone || before == some '\n'
  | .lineStart true =>
    before.isNone || before == some '\n' || (before == some '\r' && after != some '\n')
  | .lineEnd false => after.isNone || after == some '\n'
  | .lineEnd true =>
    after.isNone || after == some '\r' || (after == some '\n' && before != some '\r')
  | .wordEdge => inWord before != inWord after
  | .noWordEdge => inWord before == inWord after
  | .wordStart => !inWord before && inWord after
  | .wordEnd => inWord before && !inWord after
  | .wordStartHalf => !inWord before
  | .wordEndHalf => !inWord after

/-- The places that one step leads to from some places. -/
def advance (step : Nat → List Nat) (places : List Nat) : List Nat :=
  (places.flatMap step).eraseDups

/-- Exactly `count` steps. Once a step leads back to the same places, so do
all later ones. -/
def exactly (step : Nat → List Nat) : (count : Nat) → List Nat → List Nat
  | 0, places => places
  | count + 1, places =>
    let next := advance step places
    if next = places then places else exactly step count next

/-- At most `count` steps, from the places reached last; `reached` holds all. -/
def upTo (step : Nat → List Nat) : (count : Nat) → (reached last : List Nat) → List Nat
  | 0, reached, _ => reached
  | count + 1, reached, last =>
    let next := (advance step last).filter fun i => !reached.contains i
    if next.isEmpty then reached else upTo step count (reached ++ next) next

/-- The places where a match that starts at `i` may end. -/
def ends (text : Array Char) : Pattern → (i : Nat) → List Nat
  | .empty, i => [i]
  | .one set, i =>
    match text[i]? with
    | some c => if set.holds c.toNat then [i + 1] else []
    | none => []
  | .look condition words, i =>
    let before := if i = 0 then none else text[i - 1]?
    if condition.holds words before text[i]? then [i] else []
  | .seq p q, i => advance (ends text q) (ends text p i)
  | .either p q, i => (ends text p i ++ ends text q i).eraseDups
  | .many p least most, i =>
    let rounds := text.size + 1
    let first := exactly (ends text p) (min least rounds) [i]
    let more := match most with
      | some m => min (m - least) rounds
      | none => rounds
    upTo (ends text p) more first first

/-- The pattern matches some part of the text. -/
def matchesIn (p : Pattern) (text : String) : Bool :=
  let chars := text.toList.toArray
  (List.range (chars.size + 1)).any fun i => !(p.ends chars i).isEmpty

end Pattern
end ProxyPlan
