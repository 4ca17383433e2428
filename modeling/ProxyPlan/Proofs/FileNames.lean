/-
ProxyPlan.Proofs.FileNames — the names of the files of a topology.

The name of a server is written by hand, and so may be anything. What of it goes into the name
of a file are letters and digits in lower case, with hyphens between words (`slug_plain`).
Different servers can come to one name that way, and a server can be called as another one
whose name has been numbered. So a name that is taken is numbered from two on until one is
found that is not.

This search has no bound of its own (`Probe`). It ends because numbered names differ with
their numbers, so that a list of names holds only as many of them as it is long
(`exists_free`). A name that has been found is taken for all groups after it, which carries
distinctness from one group to the next (`groupsOf_named`).
-/
import Mathlib.Data.List.Induction
import Mathlib.Data.List.Perm.Subperm
import ProxyPlan.Proofs.Groups
import ProxyPlan.Proofs.Text

namespace ProxyPlan

/-! ## Characters of names -/

namespace Text

/-- What names of files are written with: small letters, digits and hyphens. -/
def isPlain (c : Char) : Bool :=
  ('a' ≤ c && c ≤ 'z') || ('0' ≤ c && c ≤ '9') || c == '-'

theorem splitBy_unmarked (isMark : Char → Bool) (cs : List Char) :
    ∀ piece ∈ splitBy isMark cs, ∀ c ∈ piece, isMark c = false := by
  induction cs with
  | nil => simp [splitBy]
  | cons d rest ih =>
    unfold splitBy
    split
    case isTrue => simpa using ih
    case isFalse hd =>
      have hd : isMark d = false := by simpa using hd
      split
      case h_1 => simpa using hd
      case h_2 piece pieces hpieces =>
        rw [hpieces, List.forall_mem_cons] at ih
        rw [List.forall_mem_cons]
        exact ⟨List.forall_mem_cons.mpr ⟨hd, ih.1⟩, ih.2⟩

theorem isPlain_lowerChar {c : Char} (h : isAlphanumeric c = true) :
    isPlain (lowerChar c) = true := by
  by_cases hcapital : 'A' ≤ c ∧ c ≤ 'Z'
  case pos =>
    have hnat := toNat_lowerChar hcapital
    obtain ⟨hlow, hhigh⟩ := hcapital
    have hlow : 65 ≤ c.toNat := hlow
    have hhigh : c.toNat ≤ 90 := hhigh
    have hsmall : 'a' ≤ lowerChar c ∧ lowerChar c ≤ 'z' := by
      constructor
      · show 97 ≤ (lowerChar c).toNat
        omega
      · show (lowerChar c).toNat ≤ 122
        omega
    simp [isPlain, hsmall]
  case neg =>
    rw [lowerChar, if_neg hcapital]
    simp only [isAlphanumeric, Bool.or_eq_true, Bool.and_eq_true, decide_eq_true_eq] at h
    simp only [isPlain, Bool.or_eq_true, Bool.and_eq_true, decide_eq_true_eq, beq_iff_eq]
    tauto

theorem isPlain_digit {c : Char} (h : c.isDigit = true) : isPlain c = true := by
  have hrange : 48 ≤ c.toNat ∧ c.toNat ≤ 57 := by
    simpa [Char.isDigit_iff_toNat] using h
  have hdigit : '0' ≤ c ∧ c ≤ '9' := hrange
  simp [isPlain, hdigit]

end Text

namespace Compile

open Text (isPlain)

/-- Whatever a server is called, plain characters are left of its name. -/
theorem slug_plain (name : String) : ∀ c ∈ (slug name).toList, isPlain c = true := by
  intro c hc
  rw [slug, String.toList_ofList] at hc
  obtain ⟨d, hd, rfl⟩ := List.mem_map.mp hc
  obtain hhyphen | ⟨word, hword, hd⟩ := Text.mem_intercalate hd
  · obtain rfl := List.mem_singleton.mp hhyphen
    decide
  · have hmark := Text.splitBy_unmarked _ _ word (List.mem_filter.mp hword).1 d hd
    exact Text.isPlain_lowerChar (by simpa using hmark)

/-! ## Names of single files -/

namespace FileName

/-- A name that needs no care on any file system. -/
def Plain (f : FileName) : Prop :=
  ∃ cs : List Char, f.stem = "config-" ++ String.ofList cs ∧ ∀ c ∈ cs, isPlain c = true

theorem Plain.numbered {f : FileName} (h : f.Plain) (n : Nat) : (f.numbered n).Plain := by
  obtain ⟨cs, hstem, hcs⟩ := h
  refine ⟨cs ++ '-' :: Nat.toDigits 10 n, ?_, ?_⟩
  · rw [FileName.numbered, hstem, ← String.toList_inj]
    simp
  · refine List.forall_mem_append.mpr ⟨hcs, List.forall_mem_cons.mpr ⟨by decide, fun c hc => ?_⟩⟩
    exact Text.isPlain_digit (Nat.isDigit_of_mem_toDigits (by decide) (by decide) hc)

theorem numbered_injective (f : FileName) : Function.Injective f.numbered := by
  intro m n h
  have hstem : (f.numbered m).stem.toList = (f.numbered n).stem.toList := by rw [h]
  have hdigits : Nat.toDigits 10 m = Nat.toDigits 10 n := by
    simpa [FileName.numbered] using hstem
  rw [← Nat.ofDigitChars_toDigits (b := 10) (n := m) (by decide) (by decide), hdigits,
    Nat.ofDigitChars_toDigits (by decide) (by decide)]

theorem full_injective : Function.Injective FileName.full := by
  rintro ⟨f⟩ ⟨g⟩ h
  simpa [FileName.full] using h

end FileName

theorem baseName_plain (servers : List Server) (key : Option String) :
    (baseName servers key).Plain := by
  unfold baseName
  split
  case h_1 => exact ⟨"unassigned".toList, rfl, List.all_eq_true.mp (by decide)⟩
  case h_2 id =>
    -- what stands in for a server without a name of its own is made of its identity
    have hfound : ∀ c ∈ (((servers.find? fun s => s.id == id).map fun s =>
        slug s.name).getD "").toList, isPlain c = true := by
      cases servers.find? fun s => s.id == id with
      | none => simp
      | some s => exact slug_plain s.name
    refine ⟨_, by rw [String.ofList_toList], ?_⟩
    split
    · exact slug_plain id
    · exact hfound

/-! ## The search for a name -/

variable {taken : FileName → Prop} {f found : FileName}

/-- Trying one numbered name after the other from a number on ends with a name: the first one
that is not taken. -/
inductive Probe (taken : FileName → Prop) (f : FileName) : Nat → FileName → Prop
  | free {n : Nat} (h : ¬ taken (f.numbered n)) : Probe taken f n (f.numbered n)
  | next {n : Nat} {found : FileName} (h : taken (f.numbered n))
      (rest : Probe taken f (n + 1) found) : Probe taken f n found

/-- The search for a name that is not taken ends with a name: the given one, or what trying
numbers from two on ends with. -/
inductive Search (taken : FileName → Prop) (f : FileName) : FileName → Prop
  | given (h : ¬ taken f) : Search taken f f
  | numbered {found : FileName} (h : taken f) (probe : Probe taken f 2 found) :
      Search taken f found

theorem Probe.free_of {n : Nat} (h : Probe taken f n found) : ¬ taken found := by
  induction h with
  | free h => exact h
  | next _ _ ih => exact ih

theorem Probe.exists_number {n : Nat} (h : Probe taken f n found) :
    ∃ k, n ≤ k ∧ found = f.numbered k := by
  induction h with
  | @free n h => exact ⟨n, Nat.le_refl n, rfl⟩
  | @next n found h rest ih =>
    obtain ⟨k, hk, heq⟩ := ih
    exact ⟨k, by omega, heq⟩

theorem Search.free_of (h : Search taken f found) : ¬ taken found := by
  cases h with
  | given h => exact h
  | numbered _ probe => exact probe.free_of

theorem Search.plain (h : Search taken f found) (hf : f.Plain) : found.Plain := by
  cases h with
  | given => exact hf
  | numbered _ probe =>
    obtain ⟨k, -, rfl⟩ := probe.exists_number
    exact hf.numbered k

/-- If all numbers before the last one are taken and the last one is not, the search ends
there. -/
theorem probe_of_first (n : Nat) {steps : Nat} (hfree : ¬ taken (f.numbered (n + steps)))
    (hbefore : ∀ i, i < steps → taken (f.numbered (n + i))) :
    Probe taken f n (f.numbered (n + steps)) := by
  induction steps generalizing n with
  | zero => exact .free hfree
  | succ steps ih =>
    have hshift : ∀ i, n + (i + 1) = n + 1 + i := by omega
    rw [hshift] at hfree ⊢
    refine .next (hbefore 0 (by omega)) (ih (n + 1) hfree ?_)
    intro i hi
    rw [← hshift]
    exact hbefore (i + 1) (by omega)

/-- Of more numbered names than there are taken ones, one is free. -/
theorem exists_free (taken : List FileName) (f : FileName) :
    ∃ i ∈ List.range (taken.length + 1), f.numbered (i + 2) ∉ taken := by
  by_contra hall
  push Not at hall
  have hnodup : ((List.range (taken.length + 1)).map fun i => f.numbered (i + 2)).Nodup := by
    refine List.nodup_range.map fun i j hij => ?_
    exact Nat.add_right_cancel (f.numbered_injective hij)
  have hsubset : ((List.range (taken.length + 1)).map fun i => f.numbered (i + 2)) ⊆ taken := by
    intro g hg
    obtain ⟨i, hi, rfl⟩ := List.mem_map.mp hg
    exact hall i hi
  have hlength := (hnodup.subperm hsubset).length_le
  rw [List.length_map, List.length_range] at hlength
  omega

/-- The search always ends, and with the name that a group is given. -/
theorem search_freshName (names : List FileName) (f : FileName) :
    Search (· ∈ names) f (freshName names f) := by
  unfold freshName
  split
  case isFalse hfree => exact .given (by simpa using hfree)
  case isTrue htaken =>
    obtain ⟨j, hj, hjfree⟩ := exists_free names f
    have hsome : ((List.range (names.length + 1)).find? fun i =>
        !names.contains (f.numbered (i + 2))).isSome :=
      List.find?_isSome.mpr ⟨j, hj, by simpa using hjfree⟩
    obtain ⟨i, hi⟩ := Option.isSome_iff_exists.mp hsome
    have hname : (((List.range (names.length + 1)).map fun i => f.numbered (i + 2)).find?
        fun g => !names.contains g) = some (f.numbered (2 + i)) := by
      rw [List.find?_map, Function.comp_def, hi, Option.map_some, Nat.add_comm i]
    obtain ⟨hfree, -, hbefore⟩ := List.find?_range_eq_some.mp hi
    refine .numbered (by simpa using htaken) ?_
    simp only [hname, Option.getD_some]
    refine probe_of_first 2 (by simpa [Nat.add_comm] using hfree) fun k hk => ?_
    simpa [Nat.add_comm] using hbefore k hk

/-! ## The names of all groups -/

/-- The group has the name of its server, or the first numbered one if this is among the
earlier names. -/
def Group.NamedAfter (servers : List Server) (earlier : List String) (g : Group) : Prop :=
  ∃ name : FileName, g.filename = name.full ∧
    Search (fun f => f.full ∈ earlier) (baseName servers g.server) name

theorem Group.NamedAfter.notMem {servers : List Server} {earlier : List String} {g : Group}
    (h : g.NamedAfter servers earlier) : g.filename ∉ earlier := by
  obtain ⟨name, hname, hsearch⟩ := h
  rw [hname]
  exact hsearch.free_of

theorem Group.NamedAfter.plain {servers : List Server} {earlier : List String} {g : Group}
    (h : g.NamedAfter servers earlier) : ∃ cs : List Char,
      g.filename = "config-" ++ String.ofList cs ++ ".json" ∧ ∀ c ∈ cs, isPlain c = true := by
  obtain ⟨name, hname, hsearch⟩ := h
  obtain ⟨cs, hstem, hcs⟩ := hsearch.plain (baseName_plain servers g.server)
  exact ⟨cs, by rw [hname, FileName.full, hstem], hcs⟩

/-- Each group is named after the names that are taken already and those of the groups before
it. -/
theorem groupsOf_named (nodes : List Node) (edges : List Edge) (servers : List Server)
    (taken : List FileName) (keys : List (Option String)) :
    ∀ before g after, groupsOf nodes edges servers taken keys = before ++ g :: after →
      g.NamedAfter servers (taken.map FileName.full ++ before.map Group.filename) := by
  induction keys generalizing taken with
  | nil => simp [groupsOf]
  | cons key rest ih =>
    intro before g after hsplit
    simp only [groupsOf] at hsplit
    split at hsplit
    case isTrue => exact ih taken before g after hsplit
    case isFalse =>
      cases before with
      | nil =>
        obtain ⟨rfl, -⟩ := List.cons.inj hsplit
        refine ⟨_, rfl, ?_⟩
        have hsearch := search_freshName taken (baseName servers key)
        simpa [FileName.full_injective.eq_iff] using hsearch
      | cons first before =>
        -- the name of the first group is taken for those behind it
        obtain ⟨rfl, hrest⟩ := List.cons.inj hsplit
        obtain ⟨name, hname, hsearch⟩ := ih _ before g after hrest
        refine ⟨name, hname, ?_⟩
        simpa [or_left_comm, or_assoc] using hsearch

theorem nodup_map_of_notMem {α β : Type} {f : α → β} {xs : List α}
    (h : ∀ before x after, xs = before ++ x :: after → f x ∉ before.map f) :
    (xs.map f).Nodup := by
  induction xs using List.reverseRecOn with
  | nil => exact .nil
  | append_singleton xs x ih =>
    have hxs : (xs.map f).Nodup := by
      refine ih fun before y after hsplit => h before y (after ++ [x]) ?_
      rw [hsplit, List.append_assoc, List.cons_append]
    rw [List.map_append, List.map_singleton, List.nodup_append']
    refine ⟨hxs, List.nodup_singleton _, ?_⟩
    rw [List.disjoint_singleton]
    exact h xs x [] rfl

/-- The files of a topology have distinct names, all of letters, digits and hyphens. Without
servers there is one file. Otherwise each is named after its server, and what is found for it
is the first numbered name that no group before it has. -/
theorem groups_named (t : Topology) :
    ((groups t).map Group.filename).Nodup ∧
    (∀ g ∈ groups t, g.filename = "config.json" ∨ ∃ cs : List Char,
      g.filename = "config-" ++ String.ofList cs ++ ".json" ∧ ∀ c ∈ cs, isPlain c = true) ∧
    ∀ before g after, groups t = before ++ g :: after →
      g.filename = "config.json" ∨ g.NamedAfter t.servers (before.map Group.filename) := by
  by_cases hungrouped : ∀ n ∈ t.nodes, n.group = none
  case pos =>
    rw [groups_ungrouped hungrouped]
    refine ⟨List.nodup_singleton _, ?_, ?_⟩
    · intro g hg
      obtain rfl := List.mem_singleton.mp hg
      exact .inl rfl
    · intro before g after hsplit
      have hg : g ∈ [(⟨soleFile, none, t.nodes, t.graph.links⟩ : Group)] := by
        rw [hsplit]
        exact List.mem_append_right _ List.mem_cons_self
      obtain rfl := List.mem_singleton.mp hg
      exact .inl rfl
  case neg =>
    obtain ⟨n, hn, hgroup⟩ : ∃ n ∈ t.nodes, n.group ≠ none := by simpa using hungrouped
    have hnamed : ∀ before g after, groups t = before ++ g :: after →
        g.NamedAfter t.servers (before.map Group.filename) := by
      intro before g after hsplit
      rw [groups_grouped hn hgroup] at hsplit
      exact groupsOf_named _ _ _ [] _ before g after hsplit
    refine ⟨nodup_map_of_notMem ?_, ?_, ?_⟩
    · intro before g after hsplit
      exact (hnamed before g after hsplit).notMem
    · intro g hg
      obtain ⟨before, after, hsplit⟩ := List.append_of_mem hg
      exact .inr (hnamed before g after hsplit).plain
    · intro before g after hsplit
      exact .inr (hnamed before g after hsplit)

/-- Servers whose names come to one, or to a name that is made up for another. -/
def lookalikes : Topology where
  nodes := ["a", "b", "c", "d", "é"].map fun id =>
    ⟨id, .origin, .terminal ⟨id, .freedom⟩, if id = "d" then none else some id⟩
  edges := []
  servers := [⟨"a", "Edge 2", "", none⟩, ⟨"b", " edge! ", "", none⟩, ⟨"c", "EDGE", "", none⟩]

example : (groups lookalikes).map Group.filename =
    ["config-edge-2.json", "config-edge.json", "config-edge-3.json", "config-.json",
      "config-unassigned.json"] := by decide +kernel

end Compile
end ProxyPlan
