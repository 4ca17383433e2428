/-
ProxyPlan.Proofs.WrittenDocument — taking over a document that has been written.

The file of a document holds the value of the document, settled when it is read
(`objectOf_written`). The lists of this value are the written entries, each of
which is read as what it was (`addAll_written`). So the draft of the file of a
document in normal form holds this document (`holds_draft`), and the graph that
is handed over compiles to it (`compile_outcome`).
-/
import ProxyPlan.Import.Basic
import ProxyPlan.Proofs.Placement
import ProxyPlan.Proofs.TakeOver

namespace ProxyPlan.Import

open Json (Codec settle)

/-! ## Reading the file -/

/-- A written value is read whole. -/
theorem readText_anything {v : Json} (hplain : v.Plain) (hdepth : v.depth < Json.depthLimit) :
    Codec.anything.readText (v.toLines ++ "\n") = .ok v.settle := by
  rw [Json.Codec.readText_file _ hplain]
  exact Json.Codec.read_anything (s := .start) hdepth

/-- A file that an object is written to holds this object. -/
theorem objectOf_file {fields : List (String × Json)} (hplain : (Json.object fields).Plain)
    (hdepth : (Json.object fields).depth < Json.depthLimit) :
    objectOf ((Json.object fields).toLines ++ "\n") = .ok (settle (.object fields)) := by
  simp only [objectOf, readText_anything hplain hdepth]
  rfl

/-- The file of a document holds the value of the document. -/
theorem objectOf_written {d : Document} (h : d.Written) (path : String) :
    objectOf (Compile.Output.mk path d).file.content = .ok (settle (Document.codec.write d)) := by
  have hkeeps := h.keeps
  exact objectOf_file hkeeps.plain (Nat.lt_of_le_of_lt hkeeps.depth (by decide))

/-! ## Lists of entries -/

/-- The items of a list in a settled object are the items that were written,
settled. -/
theorem itemsOf_settle {fields : List (String × Json)} (h : Json.Distinct fields) {name : String}
    {items : List Json} (hget : (Json.object fields).get? name = some (.list items)) :
    itemsOf name (settle (.object fields)) = items.map settle := by
  rw [itemsOf, Json.get?_settle h, hget, Option.map_some, settle, Json.settleItems_eq_map]
  rfl

theorem itemsOf_settle_none {fields : List (String × Json)} (h : Json.Distinct fields)
    {name : String} (hget : (Json.object fields).get? name = none) :
    itemsOf name (settle (.object fields)) = [] := by
  rw [itemsOf, Json.get?_settle h, hget]
  rfl

namespace Draft

/-- Written entries are added one after the other. The invariant speaks of the
entries that have been added so far, whose number is the place of the next. -/
theorem addAll_written {α : Type} {c : Codec α} (listing : Listing)
    (add : Nat → α → Draft → Draft) {P : List α → Draft → Prop} {xs : List α}
    (hread : ∀ x ∈ xs, c.readValue (c.write x).settle = .ok x)
    (hstep : ∀ x ∈ xs, ∀ done d, P done d → P (done ++ [x]) (add done.length x d)) {d : Draft}
    (h : P [] d) : P xs (addAll c listing add 0 ((xs.map c.write).map settle) d) := by
  suffices hall : ∀ rest done d, (∀ x ∈ rest, x ∈ xs) → P done d →
      P (done ++ rest) (addAll c listing add done.length ((rest.map c.write).map settle) d) from
    hall xs [] d (fun _ hx => hx) h
  intro rest
  induction rest with
  | nil =>
    intro done d _ h
    rw [List.append_nil]
    exact h
  | cons x rest ih =>
    intro done d hmem h
    have hx : x ∈ xs := hmem x (by simp)
    have hnext := ih (done ++ [x]) (add done.length x d) (fun y hy => hmem y (by simp [hy]))
      (hstep x hx done d h)
    rw [List.append_assoc, List.length_append, List.length_singleton] at hnext
    rw [List.map_cons, List.map_cons, addAll, hread x hx]
    exact hnext

end Draft

/-! ## The draft of a written document -/

theorem itemsOf_inbounds (d : Document) : itemsOf "inbounds" (settle (Document.codec.write d)) =
    (d.inbounds.map Document.Inbound.codec.write).map settle :=
  itemsOf_settle (Json.Fields.write_distinct (by decide) _) rfl

theorem itemsOf_outbounds (d : Document) : itemsOf "outbounds" (settle (Document.codec.write d)) =
    (d.outbounds.map Document.Outbound.codec.write).map settle :=
  itemsOf_settle (Json.Fields.write_distinct (by decide) _) rfl

theorem get?_routing (d : Document) : (settle (Document.codec.write d)).get? "routing" =
    some (settle (Document.Routing.codec.write d.routing)) :=
  Json.get?_settle (Json.Fields.write_distinct (by decide) _) "routing"

theorem get?_inbounds (d : Document) :
    ((settle (Document.codec.write d)).get? "inbounds").isSome = true := by
  have hget : (settle (Document.codec.write d)).get? "inbounds" =
      some (settle ((Codec.list Document.Inbound.codec).write d.inbounds)) :=
    Json.get?_settle (Json.Fields.write_distinct (by decide) _) "inbounds"
  rw [hget]
  rfl

theorem itemsOf_rules (r : Document.Routing) :
    itemsOf "rules" (settle (Document.Routing.codec.write r)) =
      (r.rules.map Document.Rule.codec.write).map settle :=
  itemsOf_settle (Json.Fields.write_distinct (by decide) _) rfl

/-- Balancers that are not there are left out. -/
theorem itemsOf_balancers (r : Document.Routing) :
    itemsOf "balancers" (settle (Document.Routing.codec.write r)) =
      (r.balancers.map Document.Balancer.codec.write).map settle := by
  obtain ⟨domainStrategy, rules, balancers⟩ := r
  cases balancers with
  | nil => exact itemsOf_settle_none (Json.Fields.write_distinct (by decide) _) rfl
  | cons b bs => exact itemsOf_settle (Json.Fields.write_distinct (by decide) _) rfl

/-- The draft of a written document in normal form holds the document. -/
theorem holds_draft {d : Document} (h : d.Normal) {o : Options} (ho : o.ruleNodes = true) :
    (draft o (settle (Document.codec.write d))).Holds d.inbounds d.outbounds
      d.routing.balancers d.routing.rules := by
  have hwritten := h.written
  have hinbounds := Draft.addAll_written .inbounds (fun _ => Draft.addInbound)
    (P := fun is d => d.Holds is [] [] [])
    (fun i hi => (Document.Inbound.keeps (hwritten.inbounds i hi)).readValue)
    (fun i hi done draft hdraft => hdraft.addInbound (h.inbounds i hi)) Draft.holds_empty
  have houtbounds := Draft.addAll_written .outbounds (fun _ => Draft.addOutbound)
    (P := fun os draft => draft.Holds d.inbounds os [] [])
    (fun out hout => (Document.Outbound.keeps (hwritten.outbounds out hout)).readValue)
    (fun out hout done draft hdraft => hdraft.addOutbound (h.outbounds out hout)) hinbounds
  have hbalancers := Draft.addAll_written .balancers (fun _ => Draft.addBalancer)
    (P := fun bs draft => draft.Holds d.inbounds d.outbounds bs [])
    (fun b _ => (Document.Balancer.keeps b).readValue)
    (fun b hb done draft hdraft => hdraft.addBalancer (h.balancers b hb)) houtbounds
  have hrules := Draft.addAll_written .rules (Draft.addRule o.ruleNodes)
    (P := fun rs draft => draft.Holds d.inbounds d.outbounds d.routing.balancers rs)
    (fun r hr => (Document.Rule.keeps (hwritten.rules r hr)).readValue)
    (fun r hr done draft hdraft => by
      rw [ho]
      exact hdraft.addRule (h.rules r hr)) hbalancers
  rw [draft, get?_routing, Option.getD_some, itemsOf_inbounds, itemsOf_outbounds,
    itemsOf_balancers, itemsOf_rules]
  exact hrules

/-! ## Compiling again -/

/-- A draft that is handed over compiles to one document, wherever its nodes are
put and whatever servers there are. -/
theorem compile_outcome {d : Draft} (h : d.Made) (p : Options) (servers : List Server)
    (o : Compile.Options) :
    (Topology.mk (d.outcome p).nodes (d.outcome p).edges servers).compile o =
      [⟨Compile.soleFile, Compile.plainDocument d.graph o⟩] := by
  have hplaced : (d.outcome p).nodes.map Node.unplaced = d.nodes.map Node.unplaced := by
    rw [Draft.outcome]
    split
    · exact Topology.unplaced_layout d.nodes
    · rfl
  have hungrouped : ∀ n ∈ (d.outcome p).nodes, Node.group n = none := by
    intro n hn
    have hmoved : n.unplaced ∈ d.nodes.map Node.unplaced := by
      rw [← hplaced]
      exact List.mem_map.mpr ⟨n, hn, rfl⟩
    obtain ⟨m, hm, hmn⟩ := List.mem_map.mp hmoved
    obtain ⟨number, -, hmade⟩ := h m hm
    have hserver : n.server = none := by
      rw [← Node.unplaced_server, ← hmn, Node.unplaced_server, hmade]
    rw [Node.group, hserver]
    rfl
  rw [Compile.compile_ungrouped hungrouped]
  exact congrArg (fun doc => [(⟨Compile.soleFile, doc⟩ : Compile.Output)])
    (Compile.plainDocument_moved d.edges hplaced o)

/-- What a draft holds is what its graph compiles to, but for the order of the
rules. -/
theorem Draft.Holds.plainDocument_eq {doc : Document} {d : Draft}
    (h : d.Holds doc.inbounds doc.outbounds doc.routing.balancers doc.routing.rules)
    {o : Compile.Options} (hlog : doc.log = ⟨o.logLevel⟩)
    (hstrategy : doc.routing.domainStrategy = o.domainStrategy) :
    Compile.plainDocument d.graph o =
      { doc with routing := { doc.routing with rules := Compile.rules d.graph } } := by
  have hinbounds : d.graph.nodes.filterMap Compile.plainInbound? = doc.inbounds := h.inbounds
  have houtbounds : d.graph.nodes.filterMap Compile.plainOutbound? = doc.outbounds := h.outbounds
  have hbalancers : d.graph.nodes.filterMap (Compile.balancerOf? d.graph) =
      doc.routing.balancers := (Compile.filterMap_balancerOf? h.joined).trans h.balancers
  rw [Compile.plainDocument, h.joined.linked, hinbounds, houtbounds, hbalancers, ← hlog,
    ← hstrategy]

/-- Taking over the file of a document in normal form gives a graph that compiles
to the document, but for the order of the rules if there are more than numbers
for them. -/
theorem compile_config_written {d : Document} (h : d.Normal) {o : Compile.Options}
    (hlog : d.log = ⟨o.logLevel⟩) (hstrategy : d.routing.domainStrategy = o.domainStrategy)
    {p : Options} (hp : p.ruleNodes = true) (path : String) (servers : List Server) :
    ∃ out rules, config (Compile.Output.mk path d).file.content p = .ok out ∧
      out.summary.warnings = [] ∧ rules.Perm d.routing.rules ∧
      (d.routing.rules.length ≤ 2 ^ 32 → rules = d.routing.rules) ∧
      (Topology.mk out.nodes out.edges servers).compile o =
        [⟨Compile.soleFile, { d with routing := { d.routing with rules := rules } }⟩] := by
  have hholds := holds_draft h hp
  have hconfig : config (Compile.Output.mk path d).file.content p =
      .ok ((draft p (settle (Document.codec.write d))).outcome p) := by
    have hsections : ((settle (Document.codec.write d)).get? "inbounds").isNone = false := by
      rw [← Option.not_isSome, get?_inbounds]
      rfl
    simp only [config, objectOf_written h.written, bind, Except.bind, hsections, Bool.false_and]
    rfl
  refine ⟨_, Compile.rules (draft p (settle (Document.codec.write d))).graph, hconfig,
    hholds.silent, hholds.ruled.perm hholds.joined, hholds.ruled.eq hholds.joined, ?_⟩
  rw [compile_outcome hholds.made, hholds.plainDocument_eq hlog hstrategy]

end ProxyPlan.Import
