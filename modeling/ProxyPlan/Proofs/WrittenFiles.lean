/-
ProxyPlan.Proofs.WrittenFiles — the files of compiled documents are read back.

What a document holds for its protocols is free-form, and a format keeps free-form values only
if they are in order and not too deep (`Document.Written`). So it has to be shown that both
compilers write no others. They do so entry by entry and whatever the graph is like: the
settings of an endpoint depend on its own configuration, and the connections to other groups
decide no more than where an outbound dials and how the connection is carried
(`document_written`). No rule has a name, which would not be written.

The one thing a file adds to the text of its document is the line break at its end.
-/
import ProxyPlan.Proofs.MadeUpNames

namespace ProxyPlan

open Compile (Output File)

/-! ## The documents of a topology -/

namespace Compile

variable {whole : Graph} {servers : List Server} {o : Options} {g : Group}

theorem settingsWritten_inboundOf? {n : Node} {i : Document.Inbound}
    (h : inboundOf? whole n = some i) : Document.SettingsWritten i.settings := by
  unfold inboundOf? at h
  split at h
  case h_1 c _ =>
    obtain rfl := Option.some.inj h
    exact settingsWritten_inbound c
  case h_2 => cases h

theorem settingsWritten_outboundOf? {n : Node} {out : Document.Outbound}
    (h : outboundOf? whole servers n = some out) : Document.SettingsWritten out.settings := by
  unfold outboundOf? at h
  split at h
  case h_1 c _ =>
    obtain rfl := Option.some.inj h
    exact settingsWritten_terminal c.protocol
  case h_2 c _ =>
    obtain rfl := Option.some.inj h
    exact settingsWritten_proxy c _ _
  case h_3 => cases h

/-- Whatever a group is like, nothing of its document is lost when it is written. -/
theorem document_written : (document whole servers o g).Written where
  inbounds i hi := by
    obtain ⟨n, -, hn⟩ := List.mem_filterMap.mp hi
    exact settingsWritten_inboundOf? hn
  outbounds out hout := by
    obtain ⟨n, -, hn⟩ := List.mem_filterMap.mp hout
    exact settingsWritten_outboundOf? hn
  rules r hr := by
    obtain ⟨p, t, rfl, -⟩ := document_linked r hr
    rfl

end Compile

theorem Topology.compile_written {t : Topology} {o : Compile.Options} {out : Output}
    (h : out ∈ t.compile o) : out.document.Written := by
  obtain ⟨g, -, rfl⟩ := List.mem_map.mp h
  exact Compile.document_written

/-! ## Files -/

/-- The file is that of a document: it has the name of the document, ends in a line break and
reads as the document. -/
structure Compile.File.Holds (f : File) (out : Output) : Prop where
  path : f.path = out.filename
  ending : f.content.toList.getLast? = some '\n'
  reads : Document.codec.readText f.content = .ok out.document

theorem Compile.file_holds {out : Output} (h : out.document.Written) : out.file.Holds out where
  path := rfl
  ending := by simp [Output.file]
  reads := h.keeps.readText (by decide)

/-- One after the other, the files are those of the documents. -/
theorem Compile.files_hold {outs : List Output} (h : ∀ out ∈ outs, out.document.Written) :
    List.Forall₂ File.Holds (outs.map Output.file) outs := by
  rw [List.forall₂_map_left_iff, List.forall₂_same]
  intro out hout
  exact file_holds (h out hout)

/-- Whatever is compiled with whatever options, from a topology or from a client graph, every
document has one file, with its name and a line break at the end, and is read back from it. -/
theorem compile_readBack (o : Compile.Options) :
    (∀ t : Topology,
      List.Forall₂ File.Holds ((t.compile o).map Output.file) (t.compile o)) ∧
    ∀ g : Client.Graph,
      List.Forall₂ File.Holds ((g.compile o).map Output.file) (g.compile o) := by
  constructor
  · intro t
    exact Compile.files_hold fun out hout => Topology.compile_written hout
  · intro g
    exact Compile.files_hold fun out hout => Client.compile_written hout

end ProxyPlan
