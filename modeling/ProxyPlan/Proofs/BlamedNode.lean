/-
ProxyPlan.Proofs.BlamedNode — the node that a failure to read a topology names, and what the
failure has to do with it.

The fault is found while the text is read in its order. The node is looked for afterwards, among
the settled values of the list that counts as the nodes. It is a bad node for a reader of texts
too (`Codec.tagged_settle`), and alone in a topology it is refused with a fault of its own. The
fault of the text is that one if what stands before the node reads well; otherwise reading did not
come that far, and the node is named for a fault that lies elsewhere.
-/
import ProxyPlan.Proofs.ScannedParts
import ProxyPlan.Proofs.SettledReading
import ProxyPlan.Topology.Reading

namespace ProxyPlan

open Json (Codec Fault Fields Source Tree Scan scan)
open Json.Codec

/-! ## Formats of nodes -/

theorem Ws.settles : Ws.codec.Settles :=
  settles_record (by decide) <| .optional settles_text <| .optional settles_text trivial

theorem Grpc.settles : Grpc.codec.Settles :=
  settles_record (by decide) <| .optional settles_text <| .optional settles_bool trivial

theorem Xhttp.settles : Xhttp.codec.Settles :=
  settles_record (by decide) <|
    .optional settles_text <| .optional settles_text <| .optional settles_text trivial

theorem Tls.settles : Tls.codec.Settles :=
  settles_record (by decide) <|
    .optional settles_text <| .optional settles_text.list <| .optional settles_text <|
    .optional settles_bool trivial

theorem Reality.settles : Reality.codec.Settles :=
  settles_record (by decide) <|
    .optional settles_text <| .optional settles_text <| .optional settles_text <|
    .optional settles_text <| .optional settles_text <| .optional settles_text <|
    .optional settles_text.list <| .optional settles_text.list <| .optional settles_text trivial

theorem Transport.settles : Transport.codec.Settles :=
  settles_record (by decide) <|
    .defaulting (settles_naming _) <| .defaulting (settles_naming _) <|
    .optional Ws.settles <| .optional Grpc.settles <| .optional Xhttp.settles <|
    .optional Tls.settles <| .optional Reality.settles trivial

theorem Device.settles : Device.codec.Settles :=
  settles_record (by decide) <| .defaulting settles_text <| .required (settles_naming _) trivial

theorem User.settles : User.codec.Settles :=
  settles_record (by decide) <|
    .defaulting settles_text <| .optional settles_text <| .optional settles_text <|
    .optional settles_word32 trivial

theorem Inbound.settles : Inbound.codec.Settles :=
  settles_record (by decide) <|
    .defaulting settles_text <| .required (settles_naming _) <| .defaulting settles_text <|
    .defaulting settles_word32 <| .optional settles_bool <| .items User.settles <|
    .optional settles_text <| .optional Transport.settles trivial

theorem Routing.settles : Routing.codec.Settles :=
  settles_flattened (by decide) (by decide) (.defaulting settles_text trivial) <|
    .items settles_text <| .items settles_text <| .optional settles_text <|
    .items settles_text <| .optional settles_text <| .optional settles_text trivial

theorem Balancer.settles : Balancer.codec.Settles :=
  settles_record (by decide) <|
    .defaulting settles_text <| .defaulting (settles_naming _) <|
    .defaulting settles_text.list trivial

theorem Terminal.settles : Terminal.codec.Settles :=
  settles_record (by decide) <| .defaulting settles_text <| .required (settles_naming _) trivial

theorem Proxy.settles : Proxy.codec.Settles :=
  settles_record (by decide) <|
    .defaulting settles_text <| .required (settles_naming _) <| .defaulting settles_text <|
    .defaulting settles_word32 <| .optional settles_text <| .optional settles_text <|
    .optional settles_text <| .optional Transport.settles trivial

theorem Role.settles (k : Kind) : (Role.codec k).Settles := by
  cases k with
  | device => exact Device.settles.part
  | inbound => exact Inbound.settles.part
  | routing => exact Routing.settles.part
  | balancer => exact Balancer.settles.part
  | terminal => exact Terminal.settles.part
  | proxy => exact Proxy.settles.part

theorem Position.settles : Position.codec.Settles :=
  settles_record (by decide) <| .required settles_real <| .required settles_real trivial

theorem Placed.settles {Role : Type} {role : Codec Role} (h : role.Settles) :
    (Placed.body role).Settles :=
  settles_record (show ["id", "position", "data", "serverId"].Nodup by decide) <|
    .required settles_text <| .defaulting Position.settles <| .required h <|
    .optional settles_text trivial

/-- An object that is bad as a node when it is settled is bad in a text. -/
theorem Node.refused_of_settled {fields : List (String × Json)} {s : Source}
    (h : isUnreadable Node.codec (Json.settle (.object fields)) = true) :
    ∃ fault, Node.codec.read s (.ofJson (.object fields)) = .error fault := by
  cases hread : Node.codec.read s (.ofJson (.object fields)) with
  | error fault => exact ⟨fault, rfl⟩
  | ok n =>
    have hsettled : Node.codec.readValue (Json.settle (.object fields)) = .ok n :=
      tagged_settle (fun k => Placed.settles (Role.settles k)) hread
    rw [isUnreadable, hsettled] at h
    cases h

/-! ## Reading up to an entry -/

namespace Json

/-- The fault of reading on past what has been read to something that has the fault `own`. -/
def firstFault {β : Type} (own : Fault) : Except Fault β → Fault
  | .ok _ => own
  | .error fault => fault

theorem readFields_append {ρ : Type} (f : Fields ρ) (s : Source)
    (entries more : List (String × Json)) (slots : f.Slots) :
    f.readFields s (Tree.ofFields (entries ++ more)) slots =
      (f.readFields s (Tree.ofFields entries) slots).bind
        (f.readFields s (Tree.ofFields more)) := by
  induction entries generalizing slots with
  | nil => rfl
  | cons e rest ih =>
    obtain ⟨name, v⟩ := e
    rw [List.cons_append, Fields.readFields_cons, Fields.readFields_cons]
    cases f.put s name (.ofJson v) slots with
    | error fault => rfl
    | ok found => exact ih _

theorem readAll_append {α : Type} (c : Codec α) (s : Source) (items more : List Json) :
    c.readAll s (Tree.ofItems (items ++ more)) =
      (c.readAll s (Tree.ofItems items)).bind fun xs =>
        (c.readAll s (Tree.ofItems more)).map (xs ++ ·) := by
  induction items with
  | nil =>
    show c.readAll s (Tree.ofItems more) = (c.readAll s (Tree.ofItems more)).map ([] ++ ·)
    cases c.readAll s (Tree.ofItems more) <;> rfl
  | cons v rest ih =>
    show Except.bind (c.read s (.ofJson v)) _ = Except.bind (Except.bind (c.read s (.ofJson v)) _) _
    cases c.read s (.ofJson v) with
    | error fault => rfl
    | ok x =>
      show Except.bind (c.readAll s (Tree.ofItems (rest ++ more))) _ =
        Except.bind (Except.bind (c.readAll s (Tree.ofItems rest)) _) _
      rw [ih]
      cases c.readAll s (Tree.ofItems rest) with
      | error fault => rfl
      | ok xs =>
        show Except.bind (Except.map _ (c.readAll s (Tree.ofItems more))) _ =
          Except.map _ (c.readAll s (Tree.ofItems more))
        cases c.readAll s (Tree.ofItems more) <;> rfl

section

variable {α ρ : Type} {name : String} {c : Codec α} {absent : Option (List α)}
  {omits : List α → Bool} {others : Fields ρ} {s s' : Source}

theorem read_list (henter : s.enter = .ok s') (items : List Json) :
    c.list.read s (.ofJson (.list items)) = c.readAll s' (Tree.ofItems items) := by
  show Except.bind s.enter _ = _
  rw [henter]
  show Except.bind (c.readAll s' (Tree.ofItems items)) _ = _
  cases c.readAll s' (Tree.ofItems items) <;> rfl

/-- The fault of a list with an entry that does not read: that of an item before it, and if there
is none that of the entry. -/
theorem readAll_refused {entry : Json} {own : Fault}
    (hentry : c.read s (.ofJson entry) = .error own) (sound rest : List Json) :
    c.readAll s (Tree.ofItems (sound ++ entry :: rest)) =
      .error (firstFault own (c.readAll s (Tree.ofItems sound))) := by
  have hrest : c.readAll s (Tree.ofItems (entry :: rest)) = .error own := by
    show Except.bind (c.read s (.ofJson entry)) _ = _
    rw [hentry]
    rfl
  rw [readAll_append, hrest]
  cases c.readAll s (Tree.ofItems sound) <;> rfl

/-- The fault of an object with a list in it that holds an entry which does not read: that of
what stands before the entry, and if there is none that of the entry. -/
theorem readFields_refused (henter : s.enter = .ok s') {entry : Json} {own : Fault}
    (hentry : c.read s' (.ofJson entry) = .error own) (before : List (String × Json))
    (sound rest : List Json) (after : List (String × Json))
    (slots : (Fields.field name (.list c) absent omits others).Slots) :
    (Fields.field name (.list c) absent omits others).readFields s
        (Tree.ofFields (before ++ (name, .list (sound ++ entry :: rest)) :: after)) slots =
      .error (firstFault own ((Fields.field name (.list c) absent omits others).readFields s
        (Tree.ofFields (before ++ [(name, .list sound)])) slots)) := by
  rw [readFields_append, readFields_append]
  cases (Fields.field name (.list c) absent omits others).readFields s (Tree.ofFields before)
      slots with
  | error fault => rfl
  | ok filled =>
    simp only [Except.bind]
    rw [Fields.readFields_cons, Fields.readFields_cons]
    cases htaken : filled.1 with
    | some xs => simp only [Fields.put, if_true, htaken, Except.bind, firstFault]
    | none =>
      simp only [Fields.put, if_true, htaken, read_list henter, readAll_refused hentry]
      cases c.readAll s' (Tree.ofItems sound) <;> rfl

end

section

variable {β ρ : Type} {label : String} {f : Fields ρ} {make : ρ → β} {parts : β → ρ} {s s' : Source}

/-- Where no field is required, the fault of a record is that of its fields. -/
theorem record_refused (hfinish : ∀ slots, ∃ xs, f.finish slots = .ok xs)
    (henter : s.enter = .ok s') {entries earlier : List (String × Json)} {own : Fault}
    (h : f.readFields s' (Tree.ofFields entries) f.blank =
      .error (firstFault own (f.readFields s' (Tree.ofFields earlier) f.blank))) :
    (record label f make parts).read s (.ofJson (.object entries)) =
      .error (firstFault own ((record label f make parts).read s (.ofJson (.object earlier)))) := by
  rw [read_record henter, read_record henter, h]
  cases f.readFields s' (Tree.ofFields earlier) f.blank with
  | error fault => rfl
  | ok slots =>
    obtain ⟨xs, hxs⟩ := hfinish slots
    simp only [Except.bind, hxs, Except.map, firstFault]

end

/-! ## Looking into a settled text -/

/-- A text that is read as any value is the text of one, with nothing after it. -/
theorem exists_of_readText_anything {text : String} {doc : Json}
    (h : anything.readText text = .ok doc) :
    ∃ raw, raw.settle = doc ∧ (scan text).finish = .ofJson raw ∧ (scan text).hasTrailing = false ∧
      Source.start.Allows raw.depth := by
  obtain ⟨value, hvalue, hend⟩ := exists_of_bind_eq_ok h
  obtain ⟨raw, hraw, hsettle⟩ := exists_of_map_eq_ok hvalue
  obtain ⟨hfinish, hdepth⟩ := Tree.eq_of_whole (s := .start) (Nat.succ_pos 127) hraw
  cases htrailing : (scan text).hasTrailing with
  | true =>
    simp only [htrailing, if_true] at hend
    cases hend
  | false =>
    simp only [htrailing, Bool.false_eq_true, if_false] at hend
    exact ⟨raw, hsettle.trans (Except.ok.inj hend), hfinish, rfl, hdepth⟩

/-- A field of a settled value: the last of its name in an object, settled. -/
theorem exists_of_get?_settle {v w : Json} {name : String} (h : v.settle.get? name = some w) :
    ∃ before u after, v = .object (before ++ (name, u) :: after) ∧ (∀ f ∈ after, f.1 ≠ name) ∧
      u.settle = w := by
  cases v with
  | object fields =>
    obtain ⟨before, u, after, rfl, hafter, hu⟩ := lookup_settleFields h
    exact ⟨before, u, after, rfl, hafter, hu⟩
  | _ => cases h

/-- Items of a settled value are items of a list, settled. -/
theorem exists_of_items?_settle {v : Json} {entries : List Json}
    (h : v.settle.items? = some entries) :
    ∃ items, v = .list items ∧ items.map settle = entries := by
  cases v with
  | list items =>
    obtain rfl := Option.some.inj h
    exact ⟨items, rfl, (settleItems_eq_map items).symm⟩
  | _ => cases h

end Json

/-! ## The entry that is named -/

section

variable {α : Type}

/-- The first of the nodes of a text that is refused when it is settled, where the nodes are the
last field of this name. It has the identity `id`, and `spelling` is how it stands in the text. -/
structure Blamed (c : Codec α) (text id : String) where
  before : List (String × Json)
  sound : List Json
  entry : Json
  rest : List Json
  after : List (String × Json)
  spelling : String
  scanned : scan text = .complete
    (.ofJson (.object (before ++ ("nodes", .list (sound ++ entry :: rest)) :: after))) false
  shallow : Source.start.Allows
    (Json.object (before ++ ("nodes", .list (sound ++ entry :: rest)) :: after)).depth
  last : ∀ f ∈ after, f.1 ≠ "nodes"
  reads : ∀ v ∈ sound, isUnreadable c v.settle = false
  refused : isUnreadable c entry.settle = true
  named : entry.settle.get? "id" = some (.text id)
  spelled : spelling.toList <:+: text.toList
  scanned_spelling : scan spelling = .complete (.ofJson entry) false

theorem exists_blamed {c : Codec α} {text id : String} (h : firstBadNode? c text = some id) :
    Nonempty (Blamed c text id) := by
  rw [firstBadNode?] at h
  split at h
  case h_1 => cases h
  case h_2 doc hdoc =>
    obtain ⟨raw, rfl, hfinish, htrailing, hshallow⟩ := Json.exists_of_readText_anything hdoc
    obtain ⟨nodes, hnodes, hinside⟩ := Option.bind_eq_some_iff.mp h
    obtain ⟨entries, hentries, hsearch⟩ := Option.bind_eq_some_iff.mp hinside
    obtain ⟨settled, hfirst, hidentity⟩ := Option.bind_eq_some_iff.mp hsearch
    obtain ⟨name, hname, htext⟩ := Option.bind_eq_some_iff.mp hidentity
    -- what the search has met are settled values; back to those that stand in the text
    obtain ⟨before, list, after, rfl, hlast, rfl⟩ := Json.exists_of_get?_settle hnodes
    obtain ⟨items, rfl, rfl⟩ := Json.exists_of_items?_settle hentries
    rw [List.find?_map] at hfirst
    obtain ⟨entry, hentry, rfl⟩ := Option.map_eq_some_iff.mp hfirst
    obtain ⟨hrefused, sound, rest, rfl, hreads⟩ := List.find?_eq_some_iff_append.mp hentry
    obtain ⟨first, value, others, rfl, -, -⟩ := Json.exists_of_get?_settle hname
    have hwithin : Tree.Within (.ofJson (.object (first ++ ("id", value) :: others)))
        (.ofJson (.object (before ++ ("nodes", .list (sound ++
          .object (first ++ ("id", value) :: others) :: rest)) :: after))) := by
      refine .part (Tree.mem_parts_object (List.mem_append_right _ List.mem_cons_self)) ?_
      exact .part (Tree.mem_parts_list (List.mem_append_right _ List.mem_cons_self)) (.here _)
    obtain ⟨spelling, hspelled, hscan⟩ := Json.spelled_of_scan hfinish hwithin
    obtain ⟨trailing, hrun⟩ := Scan.run_of_finish hfinish
    obtain rfl : trailing = false := by
      rw [← htrailing, scan, hrun]
      rfl
    obtain rfl : name = .text id := by
      cases name <;> simp [Json.text?] at htext
      rw [htext]
    exact ⟨{
      before, sound, rest, after, spelling
      entry := .object (first ++ ("id", value) :: others)
      scanned := hrun
      shallow := hshallow
      last := hlast
      reads := fun v hv => by simpa using hreads v hv
      refused := hrefused
      named := hname
      spelled := hspelled
      scanned_spelling := hscan }⟩

namespace Blamed

variable {c : Codec α} {text id : String} (b : Blamed c text id)

/-- A text with the entry as its only content. -/
def lone : String := "\x7b\"nodes\":[" ++ b.spelling ++ "]\x7d"

/-- The text as far as it stands before the entry. -/
def preceding : Json := .object (b.before ++ [("nodes", .list b.sound)])

theorem scan_lone :
    scan b.lone = .complete (.ofJson (.object [("nodes", .list [b.entry])])) false := by
  have hentry : Scan.run (.value []) b.spelling.toList = .complete (.ofJson b.entry) false :=
    b.scanned_spelling
  have hopen : Scan.run (.value []) "\x7b\"nodes\":[".toList =
      .firstItem [.object [] (.ok "nodes")] := rfl
  rw [scan, lone, String.toList_append, String.toList_append, Scan.run_append, Scan.run_append,
    hopen, Scan.run_firstItem hentry]
  rfl

/-- Looked for in the lone entry, the same node is found. -/
theorem firstBadNode_lone : firstBadNode? c b.lone = some id := by
  have hentry : b.entry.depth < (Json.list (b.sound ++ b.entry :: b.rest)).depth :=
    Json.depth_lt_list (List.mem_append_right b.sound List.mem_cons_self)
  have hlist : (Json.list (b.sound ++ b.entry :: b.rest)).depth <
      (Json.object (b.before ++ ("nodes", .list (b.sound ++ b.entry :: b.rest)) ::
        b.after)).depth :=
    Json.depth_lt_object (List.mem_append_right b.before List.mem_cons_self)
  have hdepth : Source.start.Allows (Json.object [("nodes", .list [b.entry])]).depth := by
    have hlone : (Json.object [("nodes", .list [b.entry])]).depth = b.entry.depth + 2 := by
      simp [Json.depth, Json.depthOfFields, Json.depthOfItems]
    exact b.shallow.mono (by omega)
  rw [firstBadNode?, Codec.readText_of_scan _ b.scan_lone, read_anything hdepth]
  show ([b.entry.settle].find? (isUnreadable c)).bind (fun e => (e.get? "id").bind Json.text?) = _
  rw [List.find?_cons_of_pos b.refused]
  show (b.entry.settle.get? "id").bind Json.text? = _
  rw [b.named]
  rfl

end Blamed

end

/-! ## What the fault is -/

/-- A topology with a node that does not read has the fault of what stands before it, and if
there is none that of the node. -/
theorem Topology.read_refused {entry : Json} {own : Fault}
    (hentry : Node.codec.read (.text 126) (.ofJson entry) = .error own)
    (before : List (String × Json)) (sound rest : List Json) (after : List (String × Json)) :
    Topology.codec.read .start
        (.ofJson (.object (before ++ ("nodes", .list (sound ++ entry :: rest)) :: after))) =
      .error (Json.firstFault own (Topology.codec.read .start
        (.ofJson (.object (before ++ [("nodes", .list sound)]))))) := by
  have henter : Source.start.enter = .ok (.text 127) := rfl
  have hinside : (Source.text 127).enter = .ok (.text 126) := rfl
  refine Json.record_refused (fun slots => ?_) henter
    (Json.readFields_refused hinside hentry before sound rest after _)
  -- all fields of a topology have values for their absence
  obtain ⟨nodes, edges, servers, ⟨⟩⟩ := slots
  exact ⟨(nodes.getD [], edges.getD [], servers.getD [], ()), by
    cases nodes <;> cases edges <;> cases servers <;> rfl⟩

/-- A failure that names a node. Alone in a topology that node is refused with its name, however
it is spelled; the failure has the same fault if all that stands before the node reads, and
otherwise a fault from there. -/
theorem Topology.ofText_blames {text id : String} {fault : Fault}
    (h : Topology.ofText text = .error (.topology fault (some id))) :
    Nonempty (Blamed Node.codec text id) ∧
      ∀ b : Blamed Node.codec text id, ∃ own : Fault,
        Topology.ofText b.lone = .error (.topology own (some id)) ∧
          fault = Json.firstFault own (Topology.codec.read .start (.ofJson b.preceding)) := by
  rw [Topology.ofText] at h
  cases hread : Topology.codec.readText text with
  | ok t =>
    rw [hread] at h
    cases h
  | error found =>
    rw [hread] at h
    obtain ⟨rfl, hnode⟩ := Failure.topology.inj (Except.error.inj h)
    refine ⟨exists_blamed hnode, fun b => ?_⟩
    obtain ⟨own, hown⟩ : ∃ own, Node.codec.read (.text 126) (.ofJson b.entry) = .error own := by
      obtain ⟨first, value, others, hentry, -, -⟩ := Json.exists_of_get?_settle b.named
      have hrefused := b.refused
      rw [hentry] at hrefused ⊢
      exact Node.refused_of_settled hrefused
    have hlone : Topology.codec.read .start (.ofJson (.object [("nodes", .list [b.entry])])) =
        .error own := Topology.read_refused hown [] [] [] []
    refine ⟨own, ?_, ?_⟩
    · rw [Topology.ofText, Codec.readText_of_scan _ b.scan_lone, b.firstBadNode_lone, hlone]
      rfl
    · rw [Codec.readText_of_scan _ b.scanned, Topology.read_refused hown] at hread
      exact (Except.error.inj hread).symm

/-! ## Failures that name a node -/

namespace Topology

/-- A topology of nodes and of fields before and after them. -/
def spelledOut (before : String) (nodes : List String) (after : String) : String :=
  "\x7b" ++ before ++ "\"nodes\":[" ++ ",".intercalate nodes ++ "]" ++ after ++ "\x7d"

/-- A device without a name. -/
def plainDevice (id : String) : String :=
  "\x7b\"id\":\"" ++ id ++ "\",\"nodeType\":\"device\"," ++
    "\"data\":\x7b\"connectionType\":\"socks\"\x7d\x7d"

/-- An inbound with a port that is a text. -/
def wordyInbound (id : String) : String :=
  "\x7b\"id\":\"" ++ id ++ "\",\"nodeType\":\"inbound\"," ++
    "\"data\":\x7b\"protocol\":\"socks\",\"port\":\"web\"\x7d\x7d"

/-- A device that has its identity twice. -/
def twiceNamed (id : String) : String :=
  "\x7b\"id\":\"" ++ id ++ "\",\"nodeType\":\"device\"," ++
    "\"data\":\x7b\"connectionType\":\"socks\"\x7d,\"id\":\"" ++ id ++ "\"\x7d"

/-- A bad node after sound edges and a sound node, and a bad server after it. -/
def wordy : String :=
  spelledOut "\"edges\":[]," [plainDevice "ok", wordyInbound "bad"] ",\"servers\":[7]"

theorem ofText_blames_wordy :
    ofText wordy = .error (.topology (.wrongType (.text "web") "u32") (some "bad")) ∧
      Nonempty (Blamed Node.codec wordy "bad") ∧
      ∀ b : Blamed Node.codec wordy "bad", ∃ own : Fault,
        ofText b.lone = .error (.topology own (some "bad")) ∧
          .wrongType (.text "web") "u32" =
            Json.firstFault own (Topology.codec.read .start (.ofJson b.preceding)) := by
  have hfailure : ofText wordy =
      .error (.topology (.wrongType (.text "web") "u32") (some "bad")) := by decide +kernel
  exact ⟨hfailure, ofText_blames hfailure⟩

/-- The node that is named need not have the fault. Here it is an edge that has it, or a node
before the one named, whose repeated field the search for the node does not see. -/
theorem ofText_misplaced :
    (∃ failure alone,
      ofText (spelledOut "\"edges\":[5]," [wordyInbound "bad"] "") = .error failure ∧
      failure.node? = some "bad" ∧
      ofText (spelledOut "" [wordyInbound "bad"] "") = .error alone ∧
      alone.message ≠ failure.message) ∧
    ∃ failure alone first,
      ofText (spelledOut "" [twiceNamed "first", wordyInbound "later"] "") = .error failure ∧
      failure.node? = some "later" ∧
      ofText (spelledOut "" [wordyInbound "later"] "") = .error alone ∧
      alone.message ≠ failure.message ∧
      ofText (spelledOut "" [twiceNamed "first"] "") = .error first ∧
      first.message = failure.message := by
  refine ⟨⟨.topology (.wrongType (.number (.integer 5)) "struct GraphEdge") (some "bad"),
    .topology (.wrongType (.text "web") "u32") (some "bad"), ?_⟩,
    ⟨.topology (.repeatedField "id") (some "later"),
    .topology (.wrongType (.text "web") "u32") (some "later"),
    .topology (.repeatedField "id") none, ?_⟩⟩
  · exact ⟨by decide +kernel, rfl, by decide +kernel, by decide +kernel⟩
  · exact ⟨by decide +kernel, rfl, by decide +kernel, by decide +kernel, by decide +kernel, rfl⟩

end Topology

end ProxyPlan
