/-
ProxyPlan.Import.Warning — what is said about the entries of a document that
could not be taken over as they are.

An entry that is not understood is skipped, and the rest of the document is
taken over without it.
-/
import ProxyPlan.Json.Fault

namespace ProxyPlan.Import

open Json (Fault)

/-- The lists of a document that are taken over. -/
inductive Listing where
  | inbounds
  | outbounds
  | balancers
  | rules
deriving DecidableEq, Repr

/-- What an entry of a list is called. -/
def Listing.entry : Listing → String
  | .inbounds => "inbound"
  | .outbounds => "outbound"
  | .balancers => "balancer"
  | .rules => "rule"

/-- What is said about an entry. Entries are counted from one. -/
inductive Warning where
  | unreadable (listing : Listing) (number : Nat) (fault : Fault)
  | unsupported (listing : Listing) (tag protocol : String)
  | unknownStrategy (balancer strategy : String)
  | noTarget (rule : Nat)
  | unknownTarget (rule : Nat) (tag : String)
  | unknownInbound (rule : Nat) (tag : String)
deriving DecidableEq

namespace Warning

/-- The list an entry of which has been skipped, if one has. -/
def skipped? : Warning → Option Listing
  | .unreadable listing _ _ | .unsupported listing _ _ => some listing
  | .noTarget _ | .unknownTarget _ _ => some .rules
  | .unknownStrategy _ _ | .unknownInbound _ _ => none

/-- An entry by its number. -/
def numbered (listing : Listing) (number : Nat) : String :=
  listing.entry ++ " #" ++ toString number

/-- The wording of a warning. -/
def message : Warning → String
  | .unreadable listing number fault =>
    "Skipped " ++ numbered listing number ++ ": " ++ fault.message
  | .unsupported listing tag protocol =>
    "Skipped " ++ listing.entry ++ " '" ++ tag ++ "': unsupported protocol '" ++ protocol ++ "'"
  | .unknownStrategy balancer strategy =>
    "Balancer '" ++ balancer ++ "': unknown strategy '" ++ strategy ++ "', using random"
  | .noTarget rule => "Skipped " ++ numbered .rules rule ++ ": no outboundTag or balancerTag"
  | .unknownTarget rule tag =>
    "Skipped " ++ numbered .rules rule ++ ": unknown target '" ++ tag ++ "'"
  | .unknownInbound rule tag =>
    "Rule #" ++ toString rule ++ ": unknown inbound '" ++ tag ++ "'"

end Warning
end ProxyPlan.Import
