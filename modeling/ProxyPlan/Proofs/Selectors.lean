/-
ProxyPlan.Proofs.Selectors — what the selector of a compiled balancer picks.

A document does not list the outbounds of a balancer but beginnings of their tags. Compiling
keeps the beginnings that the balancer declares and adds, one after the other, the tags of the
outbounds that it leads to, each unless the entries so far pick it already.

A tag that is left out is not missed. The entry that picks it is a beginning of it, and so of
every tag that it is a beginning of (`selectorMatches_of_startsWith`). Hence one step picks what
was picked before and what begins with the new tag, whether or not the tag was added
(`selectorMatches_cover`), and all steps together pick what begins in a declared way or with a
connected tag (`balancer_selects`).

Entries are trimmed before they are compared and tags are not, so connected tags have to be
trimmed already. An empty tag may be among them: it is added each time and picks nothing.
-/
import ProxyPlan.Proofs.Assembled
import ProxyPlan.Proofs.NormalDocument

namespace ProxyPlan

/-! ## Beginnings -/

namespace Text

theorem startsWith_iff {start s : String} :
    startsWith start s = true ↔ start.toList <+: s.toList :=
  List.isPrefixOf_iff_prefix

end Text

namespace Rule

variable {selector : List String} {tag t : String}

theorem selectorMatches_iff : selectorMatches selector t = true ↔
    ∃ entry ∈ selector, ∃ start, Text.nonBlank? entry = some start ∧
      start.toList <+: t.toList := by
  rw [selectorMatches, List.any_eq_true]
  refine exists_congr fun entry => and_congr_right fun _ => ?_
  cases Text.nonBlank? entry with
  | none => simp
  | some start => simp [Text.startsWith_iff]

theorem selectorMatches_append (before after : List String) :
    selectorMatches (before ++ after) t = (selectorMatches before t || selectorMatches after t) :=
  List.any_append

/-- What is picked stays picked when it goes on. -/
theorem selectorMatches_of_startsWith (h : selectorMatches selector tag = true)
    (hstart : tag.toList <+: t.toList) : selectorMatches selector t = true := by
  obtain ⟨entry, hentry, start, htrim, htag⟩ := selectorMatches_iff.mp h
  exact selectorMatches_iff.mpr ⟨entry, hentry, start, htrim, htag.trans hstart⟩

/-- A single entry without white space at its ends picks what begins with it. -/
theorem selectorMatches_singleton (htrim : Text.trim tag = tag) :
    selectorMatches [tag] t = true ↔ Text.blank tag = false ∧ tag.toList <+: t.toList := by
  rw [selectorMatches_iff]
  simp [Text.nonBlank?_eq_some, htrim]

end Rule

namespace Compile

open Rule (selectorMatches)

/-! ## One tag after the other -/

variable {selector tags : List String} {tag t : String}

/-- Covering a tag makes the selector pick what begins with it, and nothing else. -/
theorem selectorMatches_cover (htrim : Text.trim tag = tag) :
    selectorMatches (cover selector tag) t = true ↔
      selectorMatches selector t = true ∨ Text.blank tag = false ∧ tag.toList <+: t.toList := by
  unfold cover
  split
  case isTrue hpicked =>
    constructor
    · exact .inl
    · rintro (h | ⟨-, hstart⟩)
      · exact h
      · exact Rule.selectorMatches_of_startsWith hpicked hstart
  case isFalse =>
    rw [Rule.selectorMatches_append, Bool.or_eq_true, Rule.selectorMatches_singleton htrim]

/-- Covering tags makes the selector pick what begins with one of them, and nothing else. -/
theorem selectorMatches_foldl_cover (htrim : ∀ tag ∈ tags, Text.trim tag = tag) :
    selectorMatches (tags.foldl cover selector) t = true ↔ selectorMatches selector t = true ∨
      ∃ tag ∈ tags, Text.blank tag = false ∧ tag.toList <+: t.toList := by
  induction tags generalizing selector with
  | nil => simp
  | cons tag rest ih =>
    have hrest : ∀ tag' ∈ rest, Text.trim tag' = tag' := by
      intro tag' htag'
      exact htrim tag' (List.mem_cons_of_mem _ htag')
    rw [List.foldl_cons, ih hrest, selectorMatches_cover (htrim tag List.mem_cons_self), or_assoc]
    simp

/-- Covering tags adds some of them at the end, each of which the entries before it do not
pick. -/
theorem foldl_cover_eq_append (selector tags : List String) :
    ∃ added, tags.foldl cover selector = selector ++ added ∧ added.Sublist tags ∧
      ∀ before tag after, added = before ++ tag :: after →
        selectorMatches (selector ++ before) tag = false := by
  induction tags generalizing selector with
  | nil => exact ⟨[], by simp, .slnil, by simp⟩
  | cons tag rest ih =>
    rw [List.foldl_cons]
    by_cases hpicked : selectorMatches selector tag = true
    case pos =>
      obtain ⟨added, heq, hsub, hfresh⟩ := ih selector
      rw [cover, if_pos hpicked]
      exact ⟨added, heq, hsub.cons tag, hfresh⟩
    case neg =>
      obtain ⟨added, heq, hsub, hfresh⟩ := ih (selector ++ [tag])
      rw [cover, if_neg hpicked]
      refine ⟨tag :: added, by rw [heq, List.append_assoc]; rfl, hsub.cons_cons tag, ?_⟩
      intro before tag' after hsplit
      cases before with
      | nil =>
        obtain ⟨rfl, -⟩ := List.cons.inj hsplit
        simpa using hpicked
      | cons first before =>
        -- what stands before the tag in the rest stands after the first added tag
        obtain ⟨rfl, hrest⟩ := List.cons.inj hsplit
        have hnone := hfresh before tag' after hrest
        rwa [List.append_assoc] at hnone

/-! ## Balancers -/

/-- A link of the node leads to an outbound with this tag. -/
def LeadsToOutbound (g : Graph) (id tag : String) : Prop :=
  ∃ e ∈ g.edges, e.source = id ∧ g.isLink e = true ∧
    ∃ n, g.target? e = some n ∧ n.kind.isOutbound = true ∧ n.tag? = some tag

theorem mem_connected {g : Graph} {id tag : String} :
    tag ∈ (targetsOf g id).filterMap Target.outbound? ↔ LeadsToOutbound g id tag := by
  have htarget : ∀ target, Target.outbound? target = some tag ↔ target = .outbound tag := by
    intro target
    cases target <;> simp [Target.outbound?]
  constructor
  · intro h
    obtain ⟨target, htargets, htag⟩ := List.mem_filterMap.mp h
    obtain rfl := (htarget target).mp htag
    obtain ⟨e, he, n, -, hn, hout⟩ := mem_targetsOf htargets
    obtain ⟨hmem, hsource, hlink⟩ := Graph.mem_outgoing.mp he
    exact ⟨e, hmem, hsource, hlink, n, hn, target?_eq_outbound.mp hout⟩
  · rintro ⟨e, hmem, hsource, hlink, n, hn, hout⟩
    refine List.mem_filterMap.mpr ⟨.outbound tag, List.mem_filterMap.mpr ⟨e, ?_, ?_⟩, rfl⟩
    · exact Graph.mem_outgoing.mpr ⟨hmem, hsource, hlink⟩
    · rw [hn, Option.bind_some]
      exact target?_eq_outbound.mpr hout

/-- If no outbound that a balancer leads to has a tag with white space at its ends, the
compiled selector picks what the declared one picks and what begins with one of these tags, as
long as this is not blank. It begins with the declared entries, trimmed and without blank
ones; what is added are connected tags, and none that the entries before it pick. -/
theorem balancer_selects (g : Graph) (id : String) (c : Balancer)
    (htrim : ∀ tag, LeadsToOutbound g id tag → Text.trim tag = tag) :
    (∀ t, selectorMatches (balancer g id c).selector t = true ↔
      selectorMatches c.selector t = true ∨
        ∃ tag, LeadsToOutbound g id tag ∧ Text.blank tag = false ∧ tag.toList <+: t.toList) ∧
    ∃ added, (balancer g id c).selector = c.selector.filterMap Text.nonBlank? ++ added ∧
      (∀ tag ∈ added, LeadsToOutbound g id tag) ∧
      ∀ before tag after, added = before ++ tag :: after →
        selectorMatches (c.selector.filterMap Text.nonBlank? ++ before) tag = false := by
  have hselector : (balancer g id c).selector =
      ((targetsOf g id).filterMap Target.outbound?).foldl cover (declared c) := rfl
  constructor
  · intro t
    rw [hselector, selectorMatches_foldl_cover fun tag htag => htrim tag (mem_connected.mp htag),
      selectorMatches_declared]
    simp only [mem_connected]
  · obtain ⟨added, heq, hsub, hfresh⟩ :=
      foldl_cover_eq_append (declared c) ((targetsOf g id).filterMap Target.outbound?)
    refine ⟨added, heq, ?_, hfresh⟩
    intro tag htag
    exact mem_connected.mp (hsub.subset htag)

/-- A balancer that leads to an outbound it declares, to two of which one has a tag that begins
with the tag of the other, to one without a tag and to none at all. -/
def branches : Graph where
  nodes := [
    ⟨"lb", .origin, .balancer ⟨"lb", .random, [" eu-", " "]⟩, none⟩,
    ⟨"a", .origin, .terminal ⟨"eu-1", .freedom⟩, none⟩,
    ⟨"b", .origin, .terminal ⟨"us-1", .freedom⟩, none⟩,
    ⟨"c", .origin, .terminal ⟨"us-10", .freedom⟩, none⟩,
    ⟨"d", .origin, .terminal ⟨"", .blackhole⟩, none⟩]
  edges := [⟨"1", "lb", "a", .plain, none⟩, ⟨"2", "lb", "b", .plain, none⟩,
    ⟨"3", "lb", "c", .plain, none⟩, ⟨"4", "lb", "d", .plain, none⟩,
    ⟨"5", "lb", "gone", .plain, none⟩]

theorem balancer_selects_branches :
    (∀ tag, LeadsToOutbound branches "lb" tag → Text.trim tag = tag) ∧
      ∀ t, selectorMatches (balancer branches "lb" ⟨"lb", .random, [" eu-", " "]⟩).selector t =
          true ↔
        selectorMatches [" eu-", " "] t = true ∨
          ∃ tag, LeadsToOutbound branches "lb" tag ∧ Text.blank tag = false ∧
            tag.toList <+: t.toList := by
  have hall : ∀ tag ∈ (targetsOf branches "lb").filterMap Target.outbound?,
      Text.trim tag = tag := by decide +kernel
  have htrim : ∀ tag, LeadsToOutbound branches "lb" tag → Text.trim tag = tag := by
    intro tag htag
    exact hall tag (mem_connected.mpr htag)
  exact ⟨htrim, (balancer_selects branches "lb" _ htrim).1⟩

example : (balancer branches "lb" ⟨"lb", .random, [" eu-", " "]⟩).selector =
    ["eu-", "us-1", ""] := by decide +kernel

end Compile
end ProxyPlan
