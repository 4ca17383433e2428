/-
ProxyPlan.Proofs.RoundTrip — compiling, taking over and compiling again.

A graph without servers compiles to one document. If the graph is restorable,
taking the file of this document over gives a graph of another shape, with a
routing node for every rule, that compiles to the same file.

## How the proof goes

The two directions are not compared with each other. Whatever a restorable graph
compiles to is in normal form (`normal_plainDocument`), and a document in normal
form is taken over as it is (`compile_config_written`): its text is scanned as
the value that was written, its entries are read out of this value, and every
step of the draft adds its entry to what the draft holds. The normal form is the
only thing that both directions know.

## The side conditions

`Restorable` speaks of nodes and not of edges, and asks for what taking over
would otherwise change or report: a blank tag is replaced, a padded one trimmed,
an empty secret counts as missing, and a rule for an inbound that is not there
is reported.

The place of a rule is kept as the priority of edges, which has thirty-two bits.
Only beyond that many rules can their order be lost, and then it is all that is
lost.
-/
import ProxyPlan.Proofs.WrittenDocument

namespace ProxyPlan

open Compile

/-- Compiling, taking over and compiling again ends where it began. The document
is taken over without a warning, and what the graph compiles to then is the
document with some order of its rules: its own, unless there are more of them
than priorities. -/
theorem compile_import_compile {t : Topology} (h : Restorable t.nodes) (o : Compile.Options)
    {p : Import.Options} (hp : p.ruleNodes = true) (servers : List Server) :
    ∃ d out rules, t.compile o = [⟨soleFile, d⟩] ∧
      Import.config (Output.file ⟨soleFile, d⟩).content p = .ok out ∧
      out.summary.warnings = [] ∧
      (Topology.mk out.nodes out.edges servers).compile o =
        [⟨soleFile, { d with routing := { d.routing with rules := rules } }⟩] ∧
      rules.Perm d.routing.rules ∧
      (d.routing.rules.length ≤ 2 ^ 32 →
        ((Topology.mk out.nodes out.edges servers).compile o).map Output.file =
          (t.compile o).map Output.file) := by
  have hnormal : (plainDocument t.graph o).Normal := normal_plainDocument h o
  obtain ⟨out, rules, hconfig, hwarnings, hperm, hfew, hcompile⟩ :=
    Import.compile_config_written hnormal rfl rfl hp soleFile servers
  have honce : t.compile o = [⟨soleFile, plainDocument t.graph o⟩] :=
    compile_ungrouped h.ungrouped o
  refine ⟨_, out, rules, honce, hconfig, hwarnings, hcompile, hperm, fun hlength => ?_⟩
  rw [hcompile, honce, hfew hlength]

/-! ## An instance -/

/-- Two inbounds, the users of one of which are balanced over two ways out. -/
def office : Topology where
  nodes := [
    ⟨"lan", .origin, .inbound ⟨"lan", .socks, "", 1080, some true, [], none, none⟩, none⟩,
    ⟨"staff", .origin, .inbound ⟨"staff", .vless, "", 443, none,
      [⟨"ann", some "5f1c", none, some 1⟩, ⟨"ben", none, none, none⟩], none,
      some { network := .ws, security := .tls, ws := some ⟨"/", none⟩, grpc := none, xhttp := none,
             tls := none, reality := none }⟩, none⟩,
    ⟨"ads", .origin, .routing ⟨"ads", { Predicates.none with domain := ["domain:ads.example"] }⟩,
      none⟩,
    ⟨"rest", .origin, .routing ⟨"rest", .ofInbound " staff "⟩, none⟩,
    ⟨"spread", .origin, .balancer ⟨"spread", .random, [" way-"]⟩, none⟩,
    ⟨"block", .origin, .terminal ⟨"block", .blackhole⟩, none⟩,
    ⟨"one", .origin, .proxy ⟨"way-1", .trojan, "198.51.100.1", 443, none, some "pw", none, none⟩,
      none⟩,
    ⟨"two", .origin, .terminal ⟨"way-2", .freedom⟩, none⟩]
  edges := [
    ⟨"a", "staff", "rest", .plain, none⟩,
    ⟨"b", "lan", "ads", .plain, some ⟨some 7, none, none⟩⟩,
    ⟨"c", "ads", "block", .plain, none⟩, ⟨"d", "rest", "spread", .plain, none⟩,
    ⟨"e", "lan", "two", .plain, none⟩, ⟨"f", "spread", "block", .plain, none⟩]
  servers := []

theorem compile_import_compile_office :
    ∃ d out, office.compile .usual = [⟨soleFile, d⟩] ∧
      Import.config (Output.file ⟨soleFile, d⟩).content .usual = .ok out ∧
      out.summary.warnings = [] ∧
      ((Topology.mk out.nodes out.edges []).compile .usual).map Output.file =
        (office.compile .usual).map Output.file := by
  have hrestorable : Restorable office.nodes := by decide +kernel
  obtain ⟨d, out, rules, honce, hconfig, hwarnings, -, -, hfew⟩ :=
    compile_import_compile (t := office) (p := .usual) hrestorable .usual rfl []
  have hcount : (office.compile .usual).map (fun c => c.document.routing.rules.length) = [3] := by
    decide +kernel
  have hlength : d.routing.rules.length = 3 := by
    rw [honce] at hcount
    exact (List.cons.inj hcount).1
  exact ⟨d, out, honce, hconfig, hwarnings, hfew (by omega)⟩

end ProxyPlan
