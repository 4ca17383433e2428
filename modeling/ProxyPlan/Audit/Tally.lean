/-
ProxyPlan.Audit.Tally — how often every key of a list occurs, counted in one
pass.

What a second pass may ask is only the count of a key, so it does not matter in
which order the keys were first met.
-/
namespace ProxyPlan.Audit

/-- How often each key has been met so far. -/
structure Tally (κ : Type) where
  counts : List (κ × Nat)

namespace Tally

variable {κ : Type} [DecidableEq κ]

/-- How often a key has been met. -/
def count (t : Tally κ) (key : κ) : Nat := (t.counts.lookup key).getD 0

/-- Raise the count of a key; a new key starts at one. -/
def raise (key : κ) : List (κ × Nat) → List (κ × Nat)
  | [] => [(key, 1)]
  | (k, n) :: rest => if k = key then (k, n + 1) :: rest else (k, n) :: raise key rest

/-- Meet a key. -/
def add (t : Tally κ) (key : κ) : Tally κ := ⟨raise key t.counts⟩

/-- Meet keys one after the other. -/
def ofKeys (keys : List κ) : Tally κ := keys.foldl add ⟨[]⟩

end Tally
end ProxyPlan.Audit
