/-
ProxyPlan.Proofs.ReopenedProject — a project that is saved and opened again.

A project file is opened leniently, so what is opened need not be what stands in the file. It
is in a normal form, though: its version and its name are trimmed and not blank, and it was
last changed when it was made if it does not say otherwise (`Project.Filled`). A value in this
form has nothing left that opening would change (`ofObject_settle`), whatever has been left
out of the file, repeated or set to null before.

What does change on the way through a text are numbers, and the only numbers of a project that
are not counted are the coordinates of its nodes. A whole coordinate is written in tenths and
divided by ten when it is read (`Number.Binary64.reread`). So opening and saving is not quite
idempotent: everything comes back but coordinates whose tenfold has to be rounded and which
the quotient misses (`ofText_reopened`).
-/
import ProxyPlan.Project.Basic
import ProxyPlan.Proofs.Text
import ProxyPlan.Proofs.TopologyFormat

namespace ProxyPlan

open Json (Codec Plain exists_of_bind_eq_ok)

/-! ## A written project -/

/-- A project with its nodes at the places that are read of them. -/
def Project.reread (p : Project) : Project := { p with nodes := p.nodes.map Placed.reread }

theorem Project.reread_eq_iff {p : Project} :
    p.reread = p ↔ ∀ n ∈ p.nodes, n.position.reread = n.position := by
  obtain ⟨version, name, mode, servers, nodes, edges, dates⟩ := p
  simp only [reread, mk.injEq, true_and, and_true, Placed.map_reread_eq_iff]

namespace Project

theorem Dates.keeps (d : Dates) : Dates.codec.Keeps 1 d :=
  Codec.keeps_record (by decide) rfl <|
    .defaulting (Codec.keeps_text _ _) <| .defaulting (Codec.keeps_text _ _) trivial

/-- A written project is read with its nodes at other places. -/
theorem readsAs {p : Project} (h : ∀ n ∈ p.nodes, n.position.IsWhole) :
    p.toJson.ReadsAs p.reread.toJson := by
  have hnodes := readsAs_nodes fun n hn => Node.readsAs (h n hn)
  exact .field (Plain.readsAs (Json.plain_nil rfl)) <|
    .field (Plain.readsAs (Json.plain_nil rfl)) <| .field (Plain.readsAs (Json.plain_nil rfl)) <|
    .field (keeps_servers p.servers).plain.readsAs <| .field hnodes <|
    .field (keeps_edges p.edges).plain.readsAs <| .field (Dates.keeps p.dates).plain.readsAs <|
    Plain.readsAs (Json.plain_nil rfl)

theorem depth_toJson (p : Project) : p.toJson.depth < Json.depthLimit := by
  have hfields : p.toJson.depth ≤ 6 + 1 := by
    refine Nat.succ_le_succ (Json.depthOfFields_le.mpr ?_)
    simp only [List.forall_mem_cons]
    exact ⟨Nat.zero_le _, Nat.zero_le _, Nat.zero_le _, (keeps_servers p.servers).depth,
      (returns_nodes p.nodes).depth, (keeps_edges p.edges).depth,
      ((Dates.keeps p.dates).mono (by decide)).depth, by simp⟩
  exact Nat.lt_of_le_of_lt hfields (by decide)

/-- A written project holds an object with its nodes at other places, in either layout. -/
theorem objectOf_written {p : Project} (h : ∀ n ∈ p.nodes, n.position.IsWhole) :
    Import.objectOf p.toJson.toText = .ok p.reread.toJson.settle ∧
      Import.objectOf p.toJson.toLines = .ok p.reread.toJson.settle := by
  have hread : Codec.anything.read .start (.ofJson p.reread.toJson) =
      .ok p.reread.toJson.settle := Codec.read_anything (depth_toJson p.reread)
  unfold Import.objectOf
  rw [Codec.readText_toText _ (readsAs h) (by nofun),
    Codec.readText_toLines _ (readsAs h) (by nofun), hread]
  exact ⟨rfl, rfl⟩

/-! ## What has been opened -/

/-- Nothing has to be filled in when the project is opened. -/
structure Filled (p : Project) : Prop where
  version : Text.Tight p.version
  name : Text.Tight p.name
  dates : p.dates.filled = p.dates

theorem tight_textOr {doc : Json} {name fallback : String} (h : Text.Tight fallback) :
    Text.Tight (textOr doc name fallback) := by
  unfold textOr
  cases htext : ((doc.get? name).bind Json.text?).bind Text.nonBlank? with
  | none => exact h
  | some s =>
    obtain ⟨raw, -, hraw⟩ := Option.bind_eq_some_iff.mp htext
    exact Text.tight_of_nonBlank? hraw

theorem Dates.filled_filled (d : Dates) : d.filled.filled = d.filled := by
  by_cases h : d.updated = ""
  · by_cases hcreated : d.created = "" <;> simp [filled, h, hcreated]
  · simp [filled, h]

/-- Whatever an object describes has nothing left to fill in. -/
theorem filled_of_ofObject {doc : Json} {p : Project} (h : ofObject doc = .ok p) : p.Filled := by
  unfold ofObject at h
  split at h
  case isTrue => cases h
  case isFalse =>
    obtain ⟨nodes, -, h⟩ := exists_of_bind_eq_ok h
    obtain ⟨dates, -, h⟩ := exists_of_bind_eq_ok h
    obtain ⟨servers, -, h⟩ := exists_of_bind_eq_ok h
    obtain ⟨edges, -, h⟩ := exists_of_bind_eq_ok h
    obtain rfl := Except.ok.inj h
    exact ⟨tight_textOr (by decide), tight_textOr (by decide), Dates.filled_filled _⟩

theorem filled_of_ofText {text : String} {p : Project} (h : ofText text = .ok p) : p.Filled := by
  obtain ⟨doc, -, hdoc⟩ := exists_of_bind_eq_ok h
  exact filled_of_ofObject hdoc

/-! ## Opening it again -/

theorem part_settle {α : Type} {c : Codec α} {room : Nat} {x : α} (hx : c.Returns room x)
    (hpresent : c.Present) {doc : Json} {name : String}
    (hget : doc.get? name = some (c.write x).settle) (absent : α) :
    part c doc name absent = .ok x := by
  have hread : c.readValue (c.write x).settle = .ok x := hx.readValue
  unfold part
  rw [hget, Option.getD_some]
  split
  case h_1 hnull =>
    have hwritten := hpresent x
    cases hw : c.write x <;> simp_all [Json.settle, Json.isNull]
  case h_2 => rw [hread]; rfl

theorem textOr_settle {doc : Json} {name s : String} (hget : doc.get? name = some (.text s))
    (hs : Text.Tight s) (fallback : String) : textOr doc name fallback = s := by
  simp [textOr, hget, Json.text?, hs.nonBlank?]

/-- A project with nothing to fill in is described by the value that is written for it. -/
theorem ofObject_settle {p : Project} (h : p.Filled) : ofObject p.toJson.settle = .ok p := by
  have hnames : ["version", "name", "mode", "servers", "nodes", "edges", "metadata"].Nodup := by
    decide
  have hget : ∀ name, p.toJson.settle.get? name = (p.toJson.get? name).map Json.settle :=
    Json.get?_settle (by exact hnames)
  have hversion := textOr_settle (hget "version") h.version usualVersion
  have hname := textOr_settle (hget "name") h.name usualName
  have hmode : statedMode? p.toJson.settle = some p.mode := by
    have hstated : p.toJson.settle.get? "mode" = some (.text (Mode.naming.name p.mode)) :=
      hget "mode"
    simp [statedMode?, hstated, Json.text?, Mode.find?_name]
  have hservers := part_settle (keeps_servers p.servers).returns (Codec.present_list _)
    (hget "servers") []
  have hnodes := part_settle (returns_nodes p.nodes) (Codec.present_list _) (hget "nodes") []
  have hedges := part_settle (keeps_edges p.edges).returns (Codec.present_list _) (hget "edges") []
  have hdates := part_settle (Dates.keeps p.dates).returns (Codec.present_record _ _ _ _)
    (hget "metadata") ⟨"", ""⟩
  have hthere : (p.toJson.settle.get? "nodes").isNone = false := by
    rw [hget "nodes"]
    rfl
  simp only [ofObject, hthere, hnodes, hdates, hservers, hedges, hversion, hname, hmode, bind,
    Except.bind, Option.getD_some, h.dates]
  rfl

/-- A project with nothing to fill in is read with its nodes at other places, in either
layout. -/
theorem Filled.ofText_toJson {p : Project} (h : p.Filled)
    (hwhole : ∀ n ∈ p.nodes, n.position.IsWhole) :
    ofText p.toJson.toText = .ok p.reread ∧ ofText p.toJson.toLines = .ok p.reread := by
  have hreread : p.reread.Filled := ⟨h.version, h.name, h.dates⟩
  have hread := ofObject_settle hreread
  obtain ⟨htext, hlines⟩ := objectOf_written hwhole
  simp only [ofText, htext, hlines, bind, Except.bind, hread, and_self]

/-- A project that has been opened, with its nodes on whole coordinates, is opened again from
the text that is written for it, compact or over several lines. Everything in it is as it was
but the coordinates, each of which is read as ten times it over ten. It is the same project just
if these are the same, as they are if five times each of them has no more than 53 bits. -/
theorem ofText_reopened {text : String} {p : Project} (h : ofText text = .ok p)
    (hwhole : ∀ n ∈ p.nodes, n.position.IsWhole) :
    ofText p.toJson.toText = .ok p.reread ∧ ofText p.toJson.toLines = .ok p.reread ∧
      (p.reread = p ↔ ∀ n ∈ p.nodes, n.position.reread = n.position) ∧
      ((∀ n ∈ p.nodes, n.position.IsShortWhole) → p.reread = p) := by
  obtain ⟨htext, hlines⟩ := (filled_of_ofText h).ofText_toJson hwhole
  refine ⟨htext, hlines, reread_eq_iff, ?_⟩
  intro hshort
  exact reread_eq_iff.mpr fun n hn => (hshort n hn).reread_eq

/-! ### Instances -/

/-- A project of one device. -/
def lone (p : Position) : Project :=
  ⟨usualVersion, usualName, .simple, [], (Topology.lone p).nodes, [], ⟨"", ""⟩⟩

theorem reread_lone {p : Position} (h : (lone p).reread = lone p) : p.reread = p :=
  reread_eq_iff.mp h ⟨"d", p, .device ⟨"", .socks⟩, none⟩ List.mem_cons_self

theorem eq_ok_of_toOption {x : Except Failure Project} {p : Project} (h : x.toOption = some p) :
    x = .ok p := by
  cases x with
  | error e => cases h
  | ok q => exact congrArg Except.ok (Option.some.inj h)

/-- A file with a name to trim, a section that is null and one that is repeated. -/
def saved : String :=
  "\x7b\"name\": \" Home \", \"edges\": null, \"nodes\": [], " ++
    "\"nodes\": [\x7b\"nodeType\": \"device\", \"id\": \"d\", " ++
    "\"position\": \x7b\"x\": 300, \"y\": -120\x7d, " ++
    "\"data\": \x7b\"connectionType\": \"socks\"\x7d\x7d]\x7d"

theorem ofText_reopened_saved : ∃ p, ofText saved = .ok p ∧
    (∀ n ∈ p.nodes, n.position.IsWhole) ∧ (∀ n ∈ p.nodes, n.position.IsShortWhole) ∧
    ofText p.toJson.toText = .ok p := by
  have hsaved : ofText saved = .ok { lone ⟨.ofInt 300, .ofInt (-120)⟩ with name := "Home" } :=
    eq_ok_of_toOption (by decide +kernel)
  have hwhole : Position.IsWhole ⟨.ofInt 300, .ofInt (-120)⟩ :=
    Position.isWhole_ofInt (by decide) (by decide)
  have hshort : Position.IsShortWhole ⟨.ofInt 300, .ofInt (-120)⟩ :=
    Position.isShortWhole_ofInt (by decide) (by decide)
  obtain ⟨htext, -, -, hsame⟩ := ofText_reopened hsaved (Topology.forall_lone hwhole)
  rw [hsame (Topology.forall_lone hshort)] at htext
  exact ⟨_, hsaved, Topology.forall_lone hwhole, Topology.forall_lone hshort, htext⟩

/-- A file with a coordinate that is read exactly, since it is written without a point. -/
def savedFar : String :=
  "\x7b\"nodes\": [\x7b\"nodeType\": \"device\", \"id\": \"d\", " ++
    "\"position\": \x7b\"x\": 1801439850948199, \"y\": 0\x7d, " ++
    "\"data\": \x7b\"connectionType\": \"socks\"\x7d\x7d]\x7d"

/-- Opened again, the device of this file has moved by a quarter. -/
theorem ofText_reopened_far : ∃ p, ofText savedFar = .ok p ∧
    (∀ n ∈ p.nodes, n.position.IsWhole) ∧ ofText p.toJson.toText ≠ .ok p := by
  have hsaved : ofText savedFar = .ok (lone ⟨.ofInt 1801439850948199, .ofInt 0⟩) :=
    eq_ok_of_toOption (by decide +kernel)
  have hwhole : Position.IsWhole ⟨.ofInt 1801439850948199, .ofInt 0⟩ :=
    Position.isWhole_ofInt (by decide) (by decide)
  have hmoved : Position.reread ⟨.ofInt 1801439850948199, .ofInt 0⟩ ≠
      ⟨.ofInt 1801439850948199, .ofInt 0⟩ := by decide +kernel
  refine ⟨_, hsaved, Topology.forall_lone hwhole, ?_⟩
  intro hagain
  obtain ⟨htext, -⟩ := (filled_of_ofText hsaved).ofText_toJson (Topology.forall_lone hwhole)
  exact hmoved (reread_lone (Except.ok.inj (htext.symm.trans hagain)))

end Project
end ProxyPlan
