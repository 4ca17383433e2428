/-
ProxyPlan.Proofs.MadeUpNames — the names that compiling makes up for a client graph.

The user of a client graph writes the tags of servers, ways out and blocks. Compiling adds
tags of its own: for the inbounds on the user's machine, for the listening end of a server
and for a way out in every document. And it names the file of a server after the tag of
the server. So two things can go wrong.

  · A tag that is made up may be one that is written. Only the way out of the user's
    document is left out when its tag is taken; nothing else is compared. A tag is
    declared twice just when a written tag is that of a local inbound, or when the server
    that another one leads to has the tag of the way out or of the other's listening end
    (`compile_unrepeated`, `fork_repeats`).
  · A tag is put into the name of a file as it is. Names of files are as distinct as the
    tags they are made of, and hold the separators that these hold (`compile_files`), so
    that one document can be written over another or into another folder
    (`fork_overwrites`).
-/
import Mathlib.Data.List.Perm.Basic
import ProxyPlan.Proofs.TopologyFormat
import ProxyPlan.Proofs.WellLinked

namespace ProxyPlan.Client

open Compile (Options Output File)

variable {g : Graph} {o : Options}

/-! ## Tags -/

/-- The tags of the inbounds for programs of the user's own machine. -/
def Graph.localTags (g : Graph) : List String :=
  "socks-in" :: if ((g.user?.map Prod.snd).getD .usual).http.isSome then ["http-in"] else []

theorem tags_inbounds :
    (g.clientDocument o).inbounds.map Document.Inbound.tag = g.localTags := by
  show (LocalPorts.inbounds _).map Document.Inbound.tag = _
  rw [LocalPorts.inbounds, Graph.localTags]
  cases ((g.user?.map Prod.snd).getD .usual).http <;> rfl

theorem localTags_nodup (g : Graph) : g.localTags.Nodup := by
  rw [Graph.localTags]
  split <;> decide

theorem direct_notMem_localTags (g : Graph) : "direct" ∉ g.localTags := by
  rw [Graph.localTags]
  split <;> decide

theorem ne_empty_of_mem_localTags {tag : String} (h : tag ∈ g.localTags) : tag ≠ "" := by
  rintro rfl
  rw [Graph.localTags] at h
  split at h <;> revert h <;> decide

theorem ne_empty_of_not_blank {tag : String} (h : Text.blank tag = false) : tag ≠ "" := by
  rintro rfl
  exact absurd h (by decide)

/-- If the written tags are distinct, the user's document declares none twice just when no
written tag is that of a local inbound. -/
theorem clientDocument_unrepeated (htags : g.writtenTags.Nodup)
    (hblank : ∀ tag ∈ g.writtenTags, Text.blank tag = false) :
    (g.clientDocument o).hasFlaw "D001" = false ↔ ∀ tag ∈ g.writtenTags, tag ∉ g.localTags := by
  obtain ⟨added, hperm, hadded⟩ := tags_outbounds (g := g)
  have hadded : added.Nodup ∧ ∀ tag ∈ added, tag ≠ "" ∧ tag ∉ g.writtenTags ∧
      tag ∉ g.localTags := by
    obtain rfl | ⟨rfl, hfree⟩ := hadded
    · simp
    · simp [hfree, direct_notMem_localTags]
  have hgiven : ∀ tag ∈ g.localTags ++ g.outbounds.map Document.Outbound.tag, tag ≠ "" := by
    intro tag htag
    rcases List.mem_append.mp htag with htag | htag
    · exact ne_empty_of_mem_localTags htag
    · rcases List.mem_append.mp (hperm.mem_iff.mp htag) with htag | htag
      · exact ne_empty_of_not_blank (hblank tag htag)
      · exact (hadded.2 tag htag).1
  have houtbounds : (g.writtenTags ++ added).Nodup :=
    List.nodup_append'.mpr ⟨htags, hadded.1, fun tag hw ha => (hadded.2 tag ha).2.1 hw⟩
  rw [Document.hasFlaw_repeated, tags_inbounds]
  show ((g.localTags ++ g.outbounds.map Document.Outbound.tag).filter _).Nodup ↔ _
  rw [List.filter_eq_self.mpr fun tag htag => decide_eq_true (hgiven tag htag),
    List.nodup_append', hperm.nodup_iff]
  constructor
  · rintro ⟨-, -, hapart⟩ tag htag hlocal
    exact hapart hlocal (hperm.mem_iff.mpr (List.mem_append_left _ htag))
  · intro hfresh
    refine ⟨localTags_nodup g, houtbounds, fun tag hlocal htag => ?_⟩
    rcases List.mem_append.mp (hperm.mem_iff.mp htag) with htag | htag
    · exact hfresh tag htag hlocal
    · exact (hadded.2 tag htag).2.2 hlocal

/-- The tag of a listening end is not that of a way out. -/
theorem listener_ne_direct (r : Relay) : r.listener.tag ≠ "direct" := by
  intro h
  -- the two end differently, whatever the tag of the server is
  have hlast : (r.tag ++ "-in").toList.getLast? = "direct".toList.getLast? :=
    congrArg (fun s : String => s.toList.getLast?) h
  have hend : "-in".toList.getLast? = some 'n' := by decide
  rw [String.toList_append, List.getLast?_append, hend, Option.some_or] at hlast
  exact absurd hlast (by decide)

/-- The document of a server declares no tag twice just when the next server has neither
the tag of the way out nor that of the listening end. -/
theorem relayDocument_unrepeated {r next : Relay} (hnext : next.tag ≠ "") :
    (relayDocument r next o).hasFlaw "D001" = false ↔
      next.tag ≠ "direct" ∧ next.tag ≠ r.listener.tag := by
  have hlistener : r.listener.tag ≠ "" := by
    intro h
    have hnil : (r.tag ++ "-in").toList = "".toList := congrArg String.toList h
    rw [String.toList_append] at hnil
    exact absurd (List.append_eq_nil_iff.mp hnil).2 (by decide)
  rw [Document.hasFlaw_repeated]
  show ([r.listener.tag, next.tag, "direct"].filter _).Nodup ↔ _
  rw [List.filter_eq_self.mpr (by simp [hlistener, hnext])]
  simp [listener_ne_direct, eq_comm (a := next.tag), and_comm]

/-- The tags of servers are written tags. -/
theorem Graph.Relays.mem_writtenTags {n : Node} {r next : Relay} (h : g.Relays n r next) :
    r.tag ∈ g.writtenTags ∧ next.tag ∈ g.writtenTags := by
  obtain ⟨m, hm, hrole⟩ := exists_of_nextRelay? h.next
  exact ⟨List.mem_filterMap.mpr ⟨n, h.mem, by rw [Node.outboundTag?, h.role]⟩,
    List.mem_filterMap.mpr ⟨m, hm, by rw [Node.outboundTag?, hrole]⟩⟩

/-- If the tags that the user has written are distinct and not blank, no document declares
a tag twice just when no written tag is that of a local inbound, and no server leads to one
whose tag is that of the way out or of its own listening end. -/
theorem compile_unrepeated (o : Options) (htags : g.writtenTags.Nodup)
    (hblank : ∀ tag ∈ g.writtenTags, Text.blank tag = false) :
    (∀ out ∈ g.compile o, out.document.hasFlaw "D001" = false) ↔
      (∀ tag ∈ g.writtenTags, tag ∉ g.localTags) ∧
      ∀ n r next, g.Relays n r next → next.tag ≠ "direct" ∧ next.tag ≠ r.tag ++ "-in" := by
  have hrelay : ∀ {n r next}, g.Relays n r next →
      ((relayDocument r next o).hasFlaw "D001" = false ↔
        next.tag ≠ "direct" ∧ next.tag ≠ r.tag ++ "-in") := by
    intro n r next h
    exact relayDocument_unrepeated (ne_empty_of_not_blank (hblank _ h.mem_writtenTags.2))
  constructor
  · intro hnone
    refine ⟨?client, fun n r next h => ?relay⟩
    case client =>
      exact (clientDocument_unrepeated htags hblank).mp (hnone _ (mem_compile.mpr (.inl rfl)))
    case relay =>
      exact (hrelay h).mp (hnone _ (mem_compile.mpr (.inr ⟨n, r, next, h, rfl⟩)))
  · rintro ⟨hlocal, hrelays⟩ out hout
    obtain rfl | ⟨n, r, next, h, rfl⟩ := mem_compile.mp hout
    · exact (clientDocument_unrepeated htags hblank).mpr hlocal
    · exact (hrelay h).mpr (hrelays n r next h)

/-- A server of `fork`. -/
def named (tag : String) (port : UInt32) : Relay :=
  ⟨tag, .trojan, "192.0.2.1", port, none, some "secret", none, none⟩

/-- Two servers that lead to a third one. -/
def fork (left right third : String) : Graph where
  nodes := [⟨"a", .origin, .server (named left 441), none⟩,
    ⟨"b", .origin, .server (named right 442), none⟩,
    ⟨"c", .origin, .server (named third 443), none⟩, ⟨"n", .origin, .internet "away", none⟩]
  edges := [⟨"e", "a", "c", .plain, none⟩, ⟨"f", "b", "c", .plain, none⟩]

theorem compile_unrepeated_fork :
    (fork "left" "right" "left-out").writtenTags.Nodup ∧
      (∀ tag ∈ (fork "left" "right" "left-out").writtenTags, Text.blank tag = false) ∧
      ∀ out ∈ (fork "left" "right" "left-out").compile .usual,
        out.document.hasFlaw "D001" = false := by
  have htags : (fork "left" "right" "left-out").writtenTags.Nodup := by decide
  have hblank : ∀ tag ∈ (fork "left" "right" "left-out").writtenTags, Text.blank tag = false := by
    decide
  have hrelays : ∀ tag ∈ (fork "left" "right" "left-out").writtenTags,
      ∀ next ∈ (fork "left" "right" "left-out").writtenTags,
        next ≠ "direct" ∧ next ≠ tag ++ "-in" := by decide
  refine ⟨htags, hblank, (compile_unrepeated .usual htags hblank).mpr ⟨by decide, ?_⟩⟩
  intro n r next h
  exact hrelays _ h.mem_writtenTags.1 _ h.mem_writtenTags.2

/-- The tags that are written are distinct, but one of them is that of a local inbound, and
another is that of the way out of both servers. -/
theorem fork_repeats :
    ((fork "socks-in" "right" "direct").nodes.map Placed.id).Nodup ∧
      (fork "socks-in" "right" "direct").writtenTags.Nodup ∧
      (∀ tag ∈ (fork "socks-in" "right" "direct").writtenTags, Text.blank tag = false) ∧
      ((fork "socks-in" "right" "direct").compile .usual).map
        (fun out => out.document.hasFlaw "D001") = [true, true, true] := by
  refine ⟨?_, ?_, ?_, ?_⟩ <;> decide +kernel

/-! ## Files -/

/-- The tags of the servers that pass traffic on, in the order of the nodes. -/
def Graph.relayTags (g : Graph) : List String :=
  g.nodes.filterMap fun n =>
    match n.role with
    | .server r => (g.nextRelay? n.id).map fun _ => r.tag
    | _ => none

/-- The name of the file of a server. -/
def relayFile (tag : String) : String := "server-" ++ tag ++ ".json"

theorem relayFile_injective : Function.Injective relayFile := by
  intro tag tag' h
  simpa [relayFile] using h

theorem relayFile_ne_client (tag : String) : relayFile tag ≠ "client.json" := by
  intro h
  -- the two end alike, but begin differently
  have hfirst : (relayFile tag).toList.head? = "client.json".toList.head? :=
    congrArg (fun s : String => s.toList.head?) h
  have hstart : "server-".toList.head? = some 's' := by decide
  rw [relayFile, String.toList_append, String.toList_append, List.append_assoc, List.head?_append,
    hstart, Option.some_or] at hfirst
  exact absurd hfirst (by decide)

/-- The file of the user comes first, then those of the servers that pass traffic on. -/
theorem filenames_eq :
    (g.compile o).map Output.filename = "client.json" :: g.relayTags.map relayFile := by
  rw [Graph.compile, List.map_cons, Graph.relayTags, List.map_filterMap, List.map_filterMap]
  congr 1
  refine List.filterMap_congr fun n _ => ?_
  obtain ⟨id, position, role, server⟩ := n
  cases role with
  | server r => cases hnext : g.nextRelay? id <;> simp [Graph.relayOutput?, hnext, relayFile]
  | user | internet | block | rules => rfl

/-- The name leads into a folder, in one notation or the other. -/
def HasSeparator (name : String) : Prop := '/' ∈ name.toList ∨ '\\' ∈ name.toList

instance (name : String) : Decidable (HasSeparator name) :=
  inferInstanceAs (Decidable ('/' ∈ name.toList ∨ '\\' ∈ name.toList))

theorem hasSeparator_append {s t : String} :
    HasSeparator (s ++ t) ↔ HasSeparator s ∨ HasSeparator t := by
  simp only [HasSeparator, String.toList_append, List.mem_append, or_or_or_comm]

theorem hasSeparator_relayFile {tag : String} : HasSeparator (relayFile tag) ↔ HasSeparator tag := by
  have hstart : ¬ HasSeparator "server-" := by decide
  have hend : ¬ HasSeparator ".json" := by decide
  rw [relayFile, hasSeparator_append, hasSeparator_append, or_iff_left hend, or_iff_right hstart]

/-- What is found under a path after files have been written one after another; of several
with this path the last one counts. -/
def folder (files : List File) (path : String) : Option String :=
  (files.reverse.find? fun f => f.path == path).map File.content

theorem exists_folder {files : List File} {f : File} (hf : f ∈ files) :
    ∃ f' ∈ files, f'.path = f.path ∧ folder files f.path = some f'.content := by
  have hsome : (files.reverse.find? fun f' => f'.path == f.path).isSome :=
    List.find?_isSome.mpr ⟨f, List.mem_reverse.mpr hf, beq_self_eq_true f.path⟩
  obtain ⟨f', hf'⟩ := Option.isSome_iff_exists.mp hsome
  have hpath : (f'.path == f.path) = true :=
    List.find?_some (p := fun (f' : File) => f'.path == f.path) hf'
  refine ⟨f', List.mem_reverse.mp (List.mem_of_find?_eq_some hf'), eq_of_beq hpath, ?_⟩
  rw [folder, hf', Option.map_some]

/-- After all documents have been written, what is found in the file of one reads as it. -/
def Kept (outs : List Output) (out : Output) : Prop :=
  ∃ text, folder (outs.map Output.file) out.filename = some text ∧
    Document.codec.readText text = .ok out.document

/-- Documents are kept just when those with one name are the same. -/
theorem kept_iff {outs : List Output} (hwritten : ∀ out ∈ outs, out.document.Written) :
    (∀ out ∈ outs, Kept outs out) ↔ ∀ out ∈ outs, ∀ out' ∈ outs,
      out.filename = out'.filename → out.document = out'.document := by
  constructor
  · intro hkept out hout out' hout' hname
    obtain ⟨text, hfound, hread⟩ := hkept out hout
    obtain ⟨text', hfound', hread'⟩ := hkept out' hout'
    have htext : text' = text := by
      rw [hname, hfound'] at hfound
      exact Option.some.inj hfound
    rw [htext, hread] at hread'
    exact Except.ok.inj hread'
  · intro hsame out hout
    obtain ⟨f, hf, hpath, hfound⟩ := exists_folder (List.mem_map_of_mem (f := Output.file) hout)
    obtain ⟨out', hout', rfl⟩ := List.mem_map.mp hf
    refine ⟨_, hfound, ?_⟩
    rw [← hsame out' hout' out hout hpath]
    exact (hwritten out' hout').keeps.readText (by decide)

theorem settingsWritten_localInbound (tag : String) (protocol : InboundProtocol)
    (port : UInt16) : Document.SettingsWritten (localInbound tag protocol port).settings :=
  Compile.settingsWritten_inbound
    ⟨tag, protocol, "127.0.0.1", port.toUInt32, some true, [], none, none⟩

theorem settingsWritten_outbound (r : Relay) : Document.SettingsWritten r.outbound.settings :=
  Compile.settingsWritten_proxy r.toProxy _ _

theorem settingsWritten_direct (tag : String) : Document.SettingsWritten (direct tag).settings :=
  Compile.settingsWritten_terminal .freedom

theorem settingsWritten_outboundOf? {n : Node} {out : Document.Outbound}
    (h : outboundOf? n = some out) : Document.SettingsWritten out.settings := by
  rw [outboundOf?] at h
  split at h <;> cases h
  case h_1 r _ => exact settingsWritten_outbound r
  case h_2 tag _ => exact settingsWritten_direct tag
  case h_3 => exact Compile.settingsWritten_terminal .blackhole

theorem clientDocument_written : (g.clientDocument o).Written where
  inbounds i hi := by
    obtain rfl | hi := List.mem_cons.mp hi
    · exact settingsWritten_localInbound _ _ _
    · obtain ⟨port, -, rfl⟩ := List.mem_map.mp hi
      exact settingsWritten_localInbound _ _ _
  outbounds out hout := by
    obtain ⟨added, hperm, hadded⟩ := outbounds_perm (g := g)
    rcases List.mem_append.mp (hperm.mem_iff.mp hout) with hout | hout
    · obtain ⟨n, -, hn⟩ := List.mem_filterMap.mp hout
      exact settingsWritten_outboundOf? hn
    · obtain rfl | ⟨rfl, -⟩ := hadded
      · cases hout
      · obtain rfl := List.mem_singleton.mp hout
        exact settingsWritten_direct "direct"
  rules r hr := by
    obtain ⟨p, t, rfl, -⟩ := clientDocument_linked r hr
    rfl

theorem relayDocument_written (r next : Relay) : (relayDocument r next o).Written where
  inbounds i hi := by
    obtain rfl := List.mem_singleton.mp hi
    exact Compile.settingsWritten_inbound r.listener
  outbounds out hout := by
    obtain rfl | hout := List.mem_cons.mp hout
    · exact settingsWritten_outbound next
    · obtain rfl := List.mem_singleton.mp hout
      exact settingsWritten_direct "direct"
  rules rule hrule := by
    obtain ⟨p, t, rfl, -⟩ := relayDocument_linked r next rule hrule
    rfl

theorem compile_written {out : Output} (h : out ∈ g.compile o) : out.document.Written := by
  obtain rfl | ⟨n, r, next, -, rfl⟩ := mem_compile.mp h
  · exact clientDocument_written
  · exact relayDocument_written r next

/-- The files of a client graph have distinct names just when the servers that pass traffic
on have distinct tags, and names without separators just when these tags have none. No
document is lost to another one if the tags are distinct, and in general just when servers
with one tag have one document. -/
theorem compile_files (g : Graph) (o : Options) :
    (((g.compile o).map Output.filename).Nodup ↔ g.relayTags.Nodup) ∧
    ((∀ out ∈ g.compile o, ¬ HasSeparator out.filename) ↔
      ∀ tag ∈ g.relayTags, ¬ HasSeparator tag) ∧
    (g.relayTags.Nodup → ∀ out ∈ g.compile o, Kept (g.compile o) out) ∧
    ((∀ out ∈ g.compile o, Kept (g.compile o) out) ↔
      ∀ n r next, g.Relays n r next → ∀ n' r' next', g.Relays n' r' next' →
        r.tag = r'.tag → relayDocument r next o = relayDocument r' next' o) := by
  have hnodup : ((g.compile o).map Output.filename).Nodup ↔ g.relayTags.Nodup := by
    rw [filenames_eq, List.nodup_cons, List.nodup_map_iff relayFile_injective]
    refine and_iff_right fun hclient => ?_
    obtain ⟨tag, -, htag⟩ := List.mem_map.mp hclient
    exact relayFile_ne_client tag htag
  have hkept := kept_iff fun out (hout : out ∈ g.compile o) => compile_written hout
  refine ⟨hnodup, ?separators, fun htags => hkept.mpr ?distinct, hkept.trans ⟨?servers, ?same⟩⟩
  case separators =>
    have hclient : ¬ HasSeparator "client.json" := by decide
    rw [← List.forall_mem_map (f := Output.filename) (P := fun name => ¬ HasSeparator name),
      filenames_eq, List.forall_mem_cons, List.forall_mem_map]
    simp [hclient, hasSeparator_relayFile]
  case distinct =>
    intro out hout out' hout' hname
    rw [List.inj_on_of_nodup_map (hnodup.mpr htags) hout hout' hname]
  case servers =>
    intro hsame n r next h n' r' next' h' htag
    exact hsame _ (mem_compile.mpr (.inr ⟨n, r, next, h, rfl⟩)) _
      (mem_compile.mpr (.inr ⟨n', r', next', h', rfl⟩)) (congrArg relayFile htag)
  case same =>
    intro hsame out hout out' hout' hname
    obtain rfl | ⟨n, r, next, h, rfl⟩ := mem_compile.mp hout <;>
      obtain rfl | ⟨n', r', next', h', rfl⟩ := mem_compile.mp hout'
    · rfl
    · exact absurd hname.symm (relayFile_ne_client r'.tag)
    · exact absurd hname (relayFile_ne_client r.tag)
    · exact hsame n r next h n' r' next' h' (relayFile_injective hname)

theorem compile_files_fork :
    (fork "left" "right" "third").relayTags.Nodup ∧
      ∀ out ∈ (fork "left" "right" "third").compile .usual,
        Kept ((fork "left" "right" "third").compile .usual) out := by
  have htags : (fork "left" "right" "third").relayTags.Nodup := by decide
  exact ⟨htags, (compile_files _ .usual).2.2.1 htags⟩

/-- Both servers have one tag, with a separator in it. The graph is read from its text, but
the document of the first server is written into another folder and lost to that of the
second. -/
theorem fork_overwrites :
    Graph.ofText (Graph.codec.write (fork "../relay" "../relay" "third")).toText =
      .ok (fork "../relay" "../relay" "third") ∧
    ((fork "../relay" "../relay" "third").compile .usual).map Output.filename =
      ["client.json", "server-../relay.json", "server-../relay.json"] ∧
    HasSeparator "server-../relay.json" ∧
    ∃ out ∈ (fork "../relay" "../relay" "third").compile .usual,
      ¬ Kept ((fork "../relay" "../relay" "third").compile .usual) out := by
  refine ⟨Graph.ofText_unmoved (by decide), by decide +kernel, by decide, ?lost⟩
  case lost =>
    -- if both documents were kept they would be one, but they listen on different ports
    by_contra hall
    push Not at hall
    have hsame := (kept_iff fun _ hout => compile_written hout).mp hall
    have hleft : (fork "../relay" "../relay" "third").Relays
        ⟨"a", .origin, .server (named "../relay" 441), none⟩ _ (named "third" 443) :=
      ⟨by decide, rfl, by decide⟩
    have hright : (fork "../relay" "../relay" "third").Relays
        ⟨"b", .origin, .server (named "../relay" 442), none⟩ _ (named "third" 443) :=
      ⟨by decide, rfl, by decide⟩
    have hports := congrArg (fun d => d.inbounds.map Document.Inbound.port)
      (hsame _ (mem_compile.mpr (.inr ⟨_, _, _, hleft, rfl⟩)) _
        (mem_compile.mpr (.inr ⟨_, _, _, hright, rfl⟩)) rfl)
    exact absurd hports (by decide)

end ProxyPlan.Client
