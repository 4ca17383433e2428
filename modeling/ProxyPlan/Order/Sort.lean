/-
ProxyPlan.Order.Sort — stable sorting, and lists without repetition.

Lists are short, so they are sorted by insertion. This is `List.insertionSort` of Mathlib
(`Order.sort_eq_insertionSort`), written out since the program itself runs without the library.
-/
namespace ProxyPlan.Order

variable {α : Type}

/-- Put an element before the first one that it may precede. -/
def insert (r : α → α → Prop) [DecidableRel r] (x : α) : List α → List α
  | [] => [x]
  | y :: rest => if r x y then x :: y :: rest else y :: insert r x rest

/-- Sort; elements that may precede each other keep their order. -/
def sort (r : α → α → Prop) [DecidableRel r] : List α → List α
  | [] => []
  | x :: rest => insert r x (sort r rest)

/-- The first occurrences of the members of a list. -/
def firsts [DecidableEq α] (seen : List α) : List α → List α
  | [] => []
  | x :: rest => if x ∈ seen then firsts seen rest else x :: firsts (x :: seen) rest

/-- A list without repetition, in order of first occurrence. -/
def distinct [DecidableEq α] (xs : List α) : List α := firsts [] xs

end ProxyPlan.Order
