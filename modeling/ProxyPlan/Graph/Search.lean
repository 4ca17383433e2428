/-
ProxyPlan.Graph.Search — what can be reached, and the first loop that is met.

Both searches are given the neighbours of every node and a bound: as many
nodes as there are. Reaching adds whole rounds of neighbours; the search for a
loop goes as deep as it can and reports the first edge that leads back to a
node it has not left yet.
-/
import ProxyPlan.Graph.Basic

namespace ProxyPlan.Graph

/-! ## Reaching -/

/-- One round: the neighbours that were not reached before. -/
def newNeighbours (next : String → List String) (reached last : List String) : List String :=
  (Order.distinct (last.flatMap next)).filter fun v => !reached.contains v

/-- What is reached from some nodes in so many rounds. -/
def reach (next : String → List String) : (rounds : Nat) → (reached last : List String) →
    List String
  | 0, reached, _ => reached
  | rounds + 1, reached, last =>
    let new := newNeighbours next reached last
    reach next rounds (reached ++ new) new

/-- The identities that links lead to from a node, itself included. -/
def reachable (g : Graph) (id : String) : List String :=
  reach (g.neighbours fun _ => true) g.ids.length [id] [id]

/-! ## Loops -/

/-- The outcome of a search: the nodes it has left, or an edge that leads back. -/
inductive Search where
  | clear (done : List String)
  | back (source target : String)

/-- Visit nodes one after the other until one finds a loop. -/
def visitAll (visit : List String → String → Search) : (done : List String) → List String → Search
  | done, [] => .clear done
  | done, v :: rest =>
    match visit done v with
    | .clear done => visitAll visit done rest
    | .back s t => .back s t

/-- Search from a node that has not been visited. `path` are the nodes on the
way to it that have not been left, `done` those that have; so many more nodes
may lie on the way. -/
def explore (next : String → List String) : (depth : Nat) → (path done : List String) →
    (u : String) → Search
  | 0, _, done, _ => .clear done
  | depth + 1, path, done, u =>
    let path := u :: path
    let visit := fun done v =>
      if path.contains v then .back u v
      else if done.contains v then .clear done
      else explore next depth path done v
    match visitAll visit done (next u) with
    | .clear done => .clear (u :: done)
    | .back s t => .back s t

/-- The first edge that leads back, when one starts from all nodes in turn. -/
def firstBack? (next : String → List String) (starts : List String) : Option (String × String) :=
  let visit := fun (done : List String) u =>
    if done.contains u then Search.clear done else explore next starts.length [] done u
  match visitAll visit [] starts with
  | .clear _ => none
  | .back s t => some (s, t)

/-- The link that closes the first loop, hops between servers left aside. -/
def loop? (g : Graph) : Option (String × String) :=
  firstBack? (g.neighbours fun e => !g.isHop e) g.ids

end ProxyPlan.Graph
