/-
ProxyPlan.Proofs.Vocabulary — every name of a vocabulary is found as what it is
the name of.

A vocabulary is a table of names, and looking up takes the first entry that has
the name. So no entry may stand behind another of the same name, and none may be
missing from the table. For terminal outbounds it also counts that no proxy
protocol has one of their names, since a document tells the two apart by the
protocol alone.
-/
import ProxyPlan.Client.Graph

namespace ProxyPlan

/-! ## Protocols and strategies -/

theorem DeviceLink.find?_name (l : DeviceLink) : DeviceLink.naming.find? l.name = some l := by
  cases l <;> decide

theorem InboundProtocol.find?_name (p : InboundProtocol) :
    InboundProtocol.naming.find? p.name = some p := by
  cases p <;> decide

theorem TerminalProtocol.find?_name (p : TerminalProtocol) :
    TerminalProtocol.naming.find? p.name = some p := by
  cases p <;> decide

theorem ProxyProtocol.find?_name (p : ProxyProtocol) :
    ProxyProtocol.naming.find? p.name = some p := by
  cases p <;> decide

theorem TerminalProtocol.find?_proxy (p : ProxyProtocol) :
    TerminalProtocol.naming.find? p.name = none := by
  cases p <;> decide

theorem Strategy.find?_name (s : Strategy) : Strategy.naming.find? s.name = some s := by
  cases s <;> decide

/-! ## Transports and edges -/

theorem Network.find?_name (n : Network) : naming.find? n.name = some n := by
  cases n <;> decide

theorem Security.find?_name (s : Security) : naming.find? s.name = some s := by
  cases s <;> decide

theorem EdgeStyle.find?_name (s : EdgeStyle) : naming.find? (naming.name s) = some s := by
  cases s <;> decide

/-! ## Kinds of nodes -/

theorem Kind.find?_name (k : Kind) : naming.find? k.name = some k := by
  cases k <;> decide

theorem Client.Kind.find?_name (k : Client.Kind) : naming.find? (naming.name k) = some k := by
  cases k <;> decide

/-! ## Modes -/

theorem Mode.find?_name (m : Mode) : naming.find? (naming.name m) = some m := by
  cases m <;> decide

end ProxyPlan
