/-
ProxyPlan.Trace.Walk — following a request from node to node.

At every node the request is decided on by what the node is and where its
links lead, best link first. The walk ends at the first node it meets again,
so it has at most one step more than there are identities.
-/
import ProxyPlan.Rule.Match
import ProxyPlan.Trace.Basic

namespace ProxyPlan.Trace

/-! ## Choosing -/

/-- Chooses one of several candidates. It is told how many candidates there
were in each earlier choice, and how many there are now. -/
abbrev Picker := (earlier : List Nat) → (candidates : Nat) → Nat

/-- Takes the first candidate. -/
def firstPicker : Picker := fun _ _ => 0

/-- Takes what a list says, over and over again. -/
def listPicker (choices : List Nat) : Picker := fun earlier _ =>
  choices.getD (earlier.length % choices.length) 0

/-- The choice among some candidates, which stays below their number, and the
choices that were left open so far. Only a random balancer leaves it open. -/
def choose (pick : Picker) (calls : List Nat) (strategy : Strategy) (candidates : Nat) :
    Nat × List Nat :=
  match strategy with
  | .random => (min (pick calls candidates) (candidates - 1), calls ++ [candidates])
  | .roundRobin | .leastPing => (0, calls)

/-! ## Decisions -/

/-- A link out of a node and the node it leads to. -/
abbrev Exit := Edge × Node

/-- The links out of a node, best first. -/
def exits (g : Graph) (id : String) : List Exit :=
  (g.outgoing id).filterMap fun e => (g.target? e).map fun n => (e, n)

/-- What a node does with a request: it keeps it, or passes it on. -/
inductive Decision where
  | keep (remark : Remark) (ending : Ending)
  | pass (remark : Remark) (exit : Exit) (calls : List Nat)

variable [Rule.Patterns]

/-- The link leads to a rule that matches. -/
def leadsToMatch (s : Rule.Subject) (x : Exit) : Bool :=
  match Node.routing? x.2 with
  | some c => Rule.predicatesMatch c.predicates s
  | none => false

/-- The link leads past the rules. -/
def leadsPastRules (x : Exit) : Bool := Node.kind x.2 ≠ .routing

/-- An inbound passes a request to the first rule that matches, else straight
on. -/
def atInbound (r : Request) (calls : List Nat) (n : Node) (c : Inbound) (links : List Exit) :
    Decision :=
  if links.isEmpty then .keep .closedInbound (.deadEnd (Node.displayName n))
  else
    match links.find? (leadsToMatch ⟨r.domain, r.protocol, r.port, c.tag⟩) with
    | some x => .pass (.ruleMatched (Node.displayName x.2)) x calls
    | none =>
      match links.find? leadsPastRules with
      | some x => .pass .straightOn x calls
      | none => .keep .noRuleMatched (.noRule r.domain c.tag)

/-- A routing node takes its first link. -/
def atRouting (calls : List Nat) (n : Node) : List Exit → Decision
  | [] => .keep .ruleLeadsNowhere (.deadEnd (Node.displayName n))
  | x :: _ => .pass .ruleFollowed x calls

/-- A balancer chooses among the links that its selector picks; without a
selector it chooses among all. -/
def isCandidate (c : Balancer) (x : Exit) : Bool :=
  c.selector.all Text.blank || (Node.tag? x.2).any (Rule.selectorMatches c.selector)

/-- A balancer chooses among its candidates; without any it takes its first
link. -/
def atBalancer (pick : Picker) (calls : List Nat) (n : Node) (c : Balancer) :
    List Exit → Decision
  | [] => .keep .noTargets (.deadEnd (Node.displayName n))
  | x :: links =>
    match (x :: links).filter (isCandidate c) with
    | [] => .pass .nothingSelected x calls
    | y :: candidates =>
      let count := candidates.length + 1
      let (choice, calls) := choose pick calls c.strategy count
      .pass (.picked c.strategy choice count) ((y :: candidates).getD choice y) calls

/-- A proxy outbound passes a request to the next server, or out of the graph. -/
def atProxy (r : Request) (calls : List Nat) (c : Proxy) (links : List Exit) : Decision :=
  match links.find? fun x => Node.kind x.2 = .inbound with
  | some x => .pass .forwarded x calls
  | none => .keep .leaves (.delivered r.domain c.tag)

/-- What a node does with a request. -/
def decision (g : Graph) (pick : Picker) (r : Request) (calls : List Nat) (n : Node) : Decision :=
  let links := exits g n.id
  match n.role with
  | .inbound c => atInbound r calls n c links
  | .routing _ => atRouting calls n links
  | .balancer c => atBalancer pick calls n c links
  | .proxy c => atProxy r calls c links
  | .terminal c => .keep (.handled c.protocol) (.delivered r.domain c.tag)
  | .device _ => .keep .device (.deadEnd (Node.displayName n))

/-! ## Walking -/

/-- A way that ends where it has been before. -/
def revisit (calls : List Nat) (n : Node) : Trace :=
  ⟨[⟨n, .revisited⟩], [], .loop (Node.displayName n), calls⟩

/-- Walk on from a node. `visited` are the identities on the way so far; `room`
is how many are left, so without any room the node has been visited. -/
def walk (g : Graph) (pick : Picker) (r : Request) :
    (room : Nat) → (visited : List String) → (calls : List Nat) → Node → Trace
  | 0, _, calls, n => revisit calls n
  | room + 1, visited, calls, n =>
    if visited.contains n.id then revisit calls n
    else
      match decision g pick r calls n with
      | .keep remark ending => ⟨[⟨n, remark⟩], [], ending, calls⟩
      | .pass remark (e, next) calls =>
        let onward := walk g pick r room (n.id :: visited) calls next
        { onward with steps := ⟨n, remark⟩ :: onward.steps, edges := e :: onward.edges }

/-- The inbound at which a request enters. -/
def entrance? (g : Graph) (r : Request) : Option Node :=
  g.nodes.find? fun n => (Node.inbound? n).any fun c => c.tag == r.inboundTag

/-- The trace of a request. `earlier` are the choices that were left open on
the way of earlier requests. -/
def run (g : Graph) (pick : Picker) (earlier : List Nat) (r : Request) : Trace :=
  match entrance? g r with
  | some n => walk g pick r g.ids.length [] earlier n
  | none => ⟨[], [], .noInbound r.inboundTag, earlier⟩

end ProxyPlan.Trace
