/-
ProxyPlan.Proofs.DomainLabels — rules for suffixes read label by label.

A suffix rule compares characters: the domain is the suffix, or ends with a dot and the suffix.
Read label by label this says that the labels of the suffix are the last labels of the domain
(`labels_suffix_iff`), for any two texts and with empty labels too. What a rule means then follows
from what is left of its two texts: the domain in normal form, and the suffix in normal form
without dots before it.

The normal form is not idempotent, since a dot that is taken away may have white space before it.
So nothing here relies on taking it twice; what is needed is that white space at the end of a rule,
which is removed from the rule as a whole, makes no difference to the suffix in it
(`normalList_dropEnd`), and that the last character of a normal form is no dot.

Dots before a suffix are empty labels. Removing them from a domain as well keeps every suffix that
has none before it (`labels_suffix_dropDots`), and this is what makes suffix rules transitive.
-/
import Mathlib.Data.List.Infix
import ProxyPlan.Proofs.Text
import ProxyPlan.Rule.Domain

namespace ProxyPlan

/-! ## Ends of texts -/

namespace Text

/-- Nothing is removed before a text that begins and ends with no white space. -/
theorem trimList_append {start : List Char} (hstart : trimList start = start) (hne : start ≠ [])
    (cs : List Char) : trimList (start ++ cs) = start ++ cs.rdropWhile isBlank := by
  have hfront : start.dropWhile isBlank = start := by
    rw [← hstart, dropWhile_trimList]
  have hback : start.rdropWhile isBlank = start := by
    rw [← hstart, trimList, dropEndWhile_eq, List.rdropWhile_idempotent]
  have hempty : start.isEmpty = false := by simpa using hne
  rw [trimList, List.dropWhile_append, hfront, hempty]
  show (start ++ cs).rdropWhile isBlank = _
  rw [rdropWhile_append, hback]
  split
  case isTrue hnil => rw [hnil, List.append_nil]
  case isFalse => rfl

/-! ## Parts of texts -/

theorem occursIn_iff {part cs : List Char} : occursIn part cs = true ↔ part <:+: cs := by
  induction cs with
  | nil => simp [occursIn]
  | cons c cs ih =>
    rw [occursIn, Bool.or_eq_true, ih, List.isPrefixOf_iff_prefix, List.infix_cons_iff]

end Text

namespace Rule

/-! ## Labels -/

/-- The labels of a name: what stands between its dots. -/
def labels (cs : List Char) : List (List Char) := cs.splitOn '.'

theorem labels_append_dot (cs ds : List Char) : labels (cs ++ '.' :: ds) = labels cs ++ labels ds :=
  List.splitOnP_append_cons cs ds (beq_self_eq_true '.')

theorem labels_dot (cs : List Char) : labels ('.' :: cs) = [] :: labels cs :=
  labels_append_dot [] cs

theorem labels_injective {cs ds : List Char} (h : labels cs = labels ds) : cs = ds := by
  calc cs = ['.'].intercalate (labels cs) := (List.intercalate_splitOn '.').symm
    _ = ['.'].intercalate (labels ds) := by rw [h]
    _ = ds := List.intercalate_splitOn '.'

theorem labels_ne_nil (cs : List Char) : labels cs ≠ [] := List.splitOnP_ne_nil _ cs

/-- A character that is no dot belongs to the first label. -/
theorem labels_cons {c : Char} (hc : c ≠ '.') (cs : List Char) :
    ∃ first rest, labels cs = first :: rest ∧ labels (c :: cs) = (c :: first) :: rest := by
  obtain ⟨first, rest, hlabels⟩ := List.exists_cons_of_ne_nil (labels_ne_nil cs)
  refine ⟨first, rest, hlabels, ?_⟩
  rw [labels, List.splitOn, List.splitOnP_cons_eq_if_modifyHead, if_neg (by simpa using hc)]
  exact congrArg (List.modifyHead (List.cons c)) hlabels

/-- The last labels of a name are those of the name itself or of what stands behind a dot. -/
theorem labels_suffix_iff {tail cs : List Char} :
    labels tail <:+ labels cs ↔ cs = tail ∨ '.' :: tail <:+ cs := by
  constructor
  · intro h
    induction cs with
    | nil =>
      have hlength : (labels []).length ≤ (labels tail).length :=
        List.length_pos_iff.mpr (labels_ne_nil tail)
      exact .inl (labels_injective (h.eq_of_length_le hlength)).symm
    | cons c cs ih =>
      by_cases hc : c = '.'
      case pos =>
        subst hc
        rw [labels_dot, List.suffix_cons_iff, ← labels_dot] at h
        obtain heq | h := h
        · exact .inl (labels_injective heq).symm
        · obtain rfl | h := ih h
          · exact .inr (List.suffix_refl _)
          · exact .inr (h.trans (List.suffix_cons _ _))
      case neg =>
        obtain ⟨first, rest, hlabels, hcons⟩ := labels_cons hc cs
        rw [hcons, List.suffix_cons_iff, ← hcons] at h
        obtain heq | h := h
        · exact .inl (labels_injective heq).symm
        · -- fewer labels than `cs` has, so the tail is not `cs`
          rw [hlabels] at ih
          obtain rfl | h' := ih (h.trans (List.suffix_cons _ _))
          · have hlength := h.length_le
            rw [hlabels, List.length_cons] at hlength
            omega
          · exact .inr (h'.trans (List.suffix_cons _ _))
  · rintro (rfl | ⟨front, rfl⟩)
    · exact List.suffix_refl _
    · rw [labels_append_dot]
      exact List.suffix_append _ _

/-- Dots before a name are empty labels before its own. -/
theorem labels_dropDots (cs : List Char) : labels (cs.dropWhile (· = '.')) <:+ labels cs := by
  induction cs with
  | nil => exact List.suffix_refl _
  | cons c cs ih =>
    by_cases hc : c = '.'
    · subst hc
      rw [List.dropWhile_cons_of_pos (by simp), labels_dot]
      exact ih.trans (List.suffix_cons _ _)
    · rw [List.dropWhile_cons_of_neg (by simpa using hc)]

/-- The labels of a name without dots before it are there without the dots too. -/
theorem labels_suffix_dropDots {tail cs : List Char} (hhead : tail.head? ≠ some '.')
    (h : labels tail <:+ labels cs) : labels tail <:+ labels (cs.dropWhile (· = '.')) := by
  induction cs with
  | nil => exact h
  | cons c cs ih =>
    by_cases hc : c = '.'
    · subst hc
      rw [List.dropWhile_cons_of_pos (by simp)]
      rw [labels_dot, List.suffix_cons_iff, ← labels_dot] at h
      obtain heq | h := h
      · rw [labels_injective heq] at hhead
        exact absurd rfl hhead
      · exact ih h
    · rwa [List.dropWhile_cons_of_neg (by simpa using hc)]

/-! ## Normal forms -/

theorem toList_normalize (s : String) : (normalize s).toList = normalList s.toList :=
  String.toList_ofList

theorem normalList_trimList (cs : List Char) : normalList (Text.trimList cs) = normalList cs := by
  rw [normalList, normalList, Text.trimList_trimList]

theorem normalList_dropEnd (cs : List Char) :
    normalList (cs.rdropWhile Text.isBlank) = normalList cs := by
  rw [normalList, normalList, Text.trimList_dropEnd]

/-- No white space stands before a normal form. -/
theorem dropWhile_normalList (cs : List Char) :
    (normalList cs).dropWhile Text.isBlank = normalList cs := by
  have hprefix : Text.dropEndWhile (· = '.') (Text.trimList cs) <+: Text.trimList cs := by
    rw [Text.dropEndWhile_eq]
    exact List.rdropWhile_prefix _ _
  have hblank : Text.isBlank ∘ Text.lowerChar = Text.isBlank := funext Text.isBlank_lowerChar
  rw [normalList, List.dropWhile_map, hblank,
    Text.dropWhile_of_prefix hprefix (Text.dropWhile_trimList cs)]

/-- A normal form that is not empty has more than dots. -/
theorem dropDots_eq_nil {cs : List Char} :
    (normalList cs).dropWhile (· = '.') = [] ↔ normalList cs = [] := by
  refine ⟨fun h => ?_, fun h => by rw [h, List.dropWhile_nil]⟩
  rw [normalList, Text.dropEndWhile_eq, List.map_eq_nil_iff, ← List.rdropWhile_idempotent,
    List.rdropWhile_eq_nil_iff]
  intro c hc
  rw [List.dropWhile_eq_nil_iff] at h
  have hdot := h (Text.lowerChar c) (List.mem_map_of_mem hc)
  simpa [Text.lowerChar_eq_dot] using hdot

theorem normalSuffix_ne_nil {suffix : String} :
    normalSuffix suffix ≠ [] ↔ normalList suffix.toList ≠ [] := not_congr dropDots_eq_nil

/-- Behind a dot the normal form is that of what stands there. -/
theorem normalList_behind_dot (front : List Char) {cs : List Char}
    (hfront : cs.dropWhile Text.isBlank = cs) (hne : normalList cs ≠ []) :
    ∃ before, normalList (front ++ '.' :: cs) = before ++ '.' :: normalList cs := by
  have hdot : Text.isBlank '.' = false := by decide
  obtain ⟨kept, hkept⟩ : ∃ kept,
      (front ++ '.' :: cs).dropWhile Text.isBlank = kept ++ '.' :: cs := by
    rw [List.dropWhile_append]
    split
    · exact ⟨[], List.dropWhile_cons_of_neg (by simp [hdot])⟩
    · exact ⟨_, rfl⟩
  have htrim : Text.trimList cs = cs.rdropWhile Text.isBlank := by
    rw [Text.trimList, hfront, Text.dropEndWhile_eq]
  rw [normalList, Text.dropEndWhile_eq, htrim, Ne, List.map_eq_nil_iff] at hne
  have hsome : cs.rdropWhile Text.isBlank ≠ [] := by
    intro hnil
    rw [hnil] at hne
    exact hne rfl
  refine ⟨kept.map Text.lowerChar, ?_⟩
  rw [normalList, normalList, Text.trimList, hkept, htrim, Text.dropEndWhile_eq,
    Text.dropEndWhile_eq, Text.dropEndWhile_eq, List.append_cons, Text.rdropWhile_append,
    if_neg hsome, Text.rdropWhile_append, if_neg hne]
  simp [Text.lowerChar_eq_dot.mpr]

/-! ## Suffixes and categories -/

/-- A suffix matches a domain by its labels. -/
theorem matchesSuffix_iff {domain suffix : String} :
    matchesSuffix domain suffix = true ↔
      normalSuffix suffix ≠ [] ∧ labels (normalSuffix suffix) <:+ labels domain.toList := by
  rw [matchesSuffix, Bool.and_eq_true, Bool.or_eq_true, beq_iff_eq,
    List.isSuffixOf_iff_suffix, labels_suffix_iff]
  simp

/-- Further labels before a domain are in the way of no suffix. -/
theorem matchesSuffix_behind_dot {domain longer suffix : String} {front : List Char}
    (hlonger : longer.toList = front ++ '.' :: domain.toList)
    (h : matchesSuffix domain suffix = true) : matchesSuffix longer suffix = true := by
  rw [matchesSuffix_iff] at h ⊢
  refine ⟨h.1, h.2.trans ?_⟩
  rw [hlonger, labels_append_dot]
  exact List.suffix_append _ _

theorem inCategory_behind_dot {domain longer name : String} {front : List Char}
    (hlonger : longer.toList = front ++ '.' :: domain.toList)
    (h : inCategory name domain = true) : inCategory name longer = true := by
  obtain ⟨suffix, hsuffix, hmatches⟩ := List.any_eq_true.mp h
  exact List.any_eq_true.mpr ⟨suffix, hsuffix, matchesSuffix_behind_dot hlonger hmatches⟩

/-! ## Rules -/

/-- A rule begins with none of the words that say of what kind it is. -/
def Unmarked (rule : String) : Prop :=
  ∀ start ∈ DomainRule.starts, Text.startsWith start.1 (Text.trim rule) = false

instance (rule : String) : Decidable (Unmarked rule) :=
  inferInstanceAs (Decidable (∀ start ∈ DomainRule.starts,
    Text.startsWith start.1 (Text.trim rule) = false))

/-- The words have no white space around them. -/
theorem trimList_start : ∀ start ∈ DomainRule.starts,
    Text.trimList start.1.toList = start.1.toList ∧ start.1.toList ≠ [] := by
  decide

/-- What follows the word of a rule is read without the white space at its end. -/
theorem ofText_marked {word : String} {make : String → DomainRule}
    (h : (word, make) ∈ DomainRule.starts) (rest : String) :
    DomainRule.ofText (word ++ rest) =
      make (String.ofList (rest.toList.rdropWhile Text.isBlank)) := by
  obtain ⟨htight, hne⟩ := trimList_start _ h
  rw [DomainRule.ofText, String.toList_append, Text.trimList_append htight hne]
  simp only [DomainRule.starts, List.mem_cons, Prod.mk.injEq, List.not_mem_nil, or_false] at h
  obtain ⟨rfl, rfl⟩ | ⟨rfl, rfl⟩ | ⟨rfl, rfl⟩ | ⟨rfl, rfl⟩ | ⟨rfl, rfl⟩ := h <;>
    simp [DomainRule.starts, List.isPrefixOf?]

theorem ofText_unmarked {rule : String} (h : Unmarked rule) :
    DomainRule.ofText rule = .suffix (Text.trim rule) := by
  rw [DomainRule.ofText, List.findSome?_eq_none_iff.mpr ?unread]
  case unread =>
    intro start hstart
    have hnot := h start hstart
    rw [Text.startsWith, Text.trim, String.toList_ofList, ← List.isSome_isPrefixOf?_eq_isPrefixOf,
      Option.isSome_eq_false_iff, Option.isNone_iff_eq_none] at hnot
    exact Option.map_eq_none_iff.mpr hnot
  rfl

section

variable [Patterns]

theorem matchesDomain_iff {rule domain : String} :
    matchesDomain rule domain = true ↔ normalList domain.toList ≠ [] ∧
      (DomainRule.ofText rule).holds (normalize domain) = true := by
  rw [matchesDomain, Bool.and_eq_true, Bool.not_eq_true', ← toList_normalize,
    ← Bool.not_eq_true, String.isEmpty_iff, Ne, String.toList_eq_nil_iff]

/-- The labels of a suffix are the last labels of a domain, both in normal form and without dots
before the suffix, and there is something of either. -/
def Covers (suffix domain : String) : Prop :=
  normalList domain.toList ≠ [] ∧ normalSuffix suffix ≠ [] ∧
    labels (normalSuffix suffix) <:+ labels (normalList domain.toList)

instance (suffix domain : String) : Decidable (Covers suffix domain) :=
  inferInstanceAs (Decidable (normalList domain.toList ≠ [] ∧ normalSuffix suffix ≠ [] ∧
    labels (normalSuffix suffix) <:+ labels (normalList domain.toList)))

theorem suffix_holds_iff {suffix rest domain : String}
    (hrest : normalList rest.toList = normalList suffix.toList) :
    normalList domain.toList ≠ [] ∧ (DomainRule.suffix rest).holds (normalize domain) = true ↔
      Covers suffix domain := by
  have hsuffix : normalSuffix rest = normalSuffix suffix := congrArg (List.dropWhile _) hrest
  rw [DomainRule.holds, matchesSuffix_iff, hsuffix, toList_normalize, Covers]

/-- A rule for a suffix asks for its labels. -/
theorem matchesDomain_suffix {suffix domain : String} :
    matchesDomain ("domain:" ++ suffix) domain = true ↔ Covers suffix domain := by
  have hword : ("domain:", DomainRule.suffix) ∈ DomainRule.starts := by simp [DomainRule.starts]
  rw [matchesDomain_iff, ofText_marked hword]
  exact suffix_holds_iff (by rw [String.toList_ofList, normalList_dropEnd])

theorem matchesDomain_unmarked {rule domain : String} (h : Unmarked rule) :
    matchesDomain rule domain = true ↔ Covers rule domain := by
  rw [matchesDomain_iff, ofText_unmarked h]
  exact suffix_holds_iff (by rw [Text.trim, String.toList_ofList, normalList_trimList])

/-- A rule for one name asks for its normal form. -/
theorem matchesDomain_exact {name domain : String} :
    matchesDomain ("full:" ++ name) domain = true ↔
      normalList domain.toList ≠ [] ∧ normalList domain.toList = normalList name.toList := by
  have hword : ("full:", DomainRule.exact) ∈ DomainRule.starts := by simp [DomainRule.starts]
  rw [matchesDomain_iff, ofText_marked hword,
    DomainRule.holds, beq_iff_eq, ← String.toList_inj, toList_normalize, toList_normalize,
    String.toList_ofList, normalList_dropEnd]

/-- A rule for a word asks for its normal form somewhere in the domain. -/
theorem matchesDomain_keyword {word domain : String} :
    matchesDomain ("keyword:" ++ word) domain = true ↔ normalList domain.toList ≠ [] ∧
      normalList word.toList ≠ [] ∧ normalList word.toList <:+: normalList domain.toList := by
  have hword : ("keyword:", DomainRule.keyword) ∈ DomainRule.starts := by simp [DomainRule.starts]
  rw [matchesDomain_iff, ofText_marked hword,
    DomainRule.holds, Bool.and_eq_true, Text.occursIn_iff, String.toList_ofList,
    normalList_dropEnd, toList_normalize]
  simp

theorem matchesDomain_category {name domain : String} :
    matchesDomain ("geosite:" ++ name) domain = true ↔ normalList domain.toList ≠ [] ∧
      inCategory (String.ofList (name.toList.rdropWhile Text.isBlank))
        (normalize domain) = true := by
  have hword : ("geosite:", DomainRule.category) ∈ DomainRule.starts := by simp [DomainRule.starts]
  rw [matchesDomain_iff, ofText_marked hword,
    DomainRule.holds]

end

/-! ## What follows for labels -/

theorem Covers.of_exact {name domain : String} (hne : normalList domain.toList ≠ [])
    (h : normalList domain.toList = normalList name.toList) : Covers name domain := by
  refine ⟨hne, normalSuffix_ne_nil.mpr (h ▸ hne), ?_⟩
  rw [h]
  exact labels_dropDots _

/-- A suffix without dots before it is a part of every domain that it covers. -/
theorem Covers.infix {suffix domain : String} (h : Covers suffix domain)
    (hhead : (normalList suffix.toList).head? ≠ some '.') :
    normalList suffix.toList <:+: normalList domain.toList := by
  have hself : normalSuffix suffix = normalList suffix.toList := by
    rw [normalSuffix]
    cases hlist : normalList suffix.toList with
    | nil => rfl
    | cons c cs =>
      rw [hlist, List.head?_cons, Ne, Option.some.injEq] at hhead
      exact List.dropWhile_cons_of_neg (by simpa using hhead)
  obtain ⟨-, -, hlabels⟩ := h
  rw [hself] at hlabels
  obtain heq | hdot := labels_suffix_iff.mp hlabels
  · rw [heq]
  · exact ((List.suffix_cons _ _).trans hdot).isInfix

theorem Covers.trans {suffix name domain : String} (h : Covers suffix name)
    (h' : Covers name domain) : Covers suffix domain := by
  have hhead : (normalSuffix suffix).head? ≠ some '.' := by
    intro hdot
    rw [List.head?_eq_some_head h.2.1, Option.some.injEq] at hdot
    have hnot : decide ((normalSuffix suffix).head h.2.1 = '.') = false :=
      List.head_dropWhile_not (· = '.') h.2.1
    rw [hdot] at hnot
    cases hnot
  exact ⟨h'.1, h.2.1, (labels_suffix_dropDots hhead h.2.2).trans h'.2.2⟩

/-- A rule for a suffix, with or without its word, asks for the labels of the suffix at the end of
the domain. So it matches whatever a rule for the name alone matches, matches only what has the
suffix as a part if no dots stand before it, and matches what is matched by a name that it matches.
A category that a domain belongs to is one of all names with further labels before it. -/
theorem matchesDomain_labels [Patterns] :
    (∀ x d, matchesDomain ("domain:" ++ x) d = true ↔ Covers x d) ∧
    (∀ x d, Unmarked x → (matchesDomain x d = true ↔ Covers x d)) ∧
    (∀ x d, matchesDomain ("full:" ++ x) d = true → matchesDomain ("domain:" ++ x) d = true) ∧
    (∀ x d, (normalList x.toList).head? ≠ some '.' → matchesDomain ("domain:" ++ x) d = true →
      matchesDomain ("keyword:" ++ x) d = true) ∧
    (∀ x y d, matchesDomain ("domain:" ++ x) y = true → matchesDomain ("domain:" ++ y) d = true →
      matchesDomain ("domain:" ++ x) d = true) ∧
    (∀ name d p, inCategory name (normalize d) = true →
      inCategory name (p ++ "." ++ normalize d) = true) ∧
    (∀ name d p, matchesDomain ("geosite:" ++ name) (normalize d) = true →
      matchesDomain ("geosite:" ++ name) (p ++ "." ++ normalize d) = true) := by
  refine ⟨fun x d => matchesDomain_suffix, fun x d => matchesDomain_unmarked, ?exact, ?keyword,
    ?trans, ?category, ?geosite⟩
  case exact =>
    intro x d h
    obtain ⟨hne, heq⟩ := matchesDomain_exact.mp h
    exact matchesDomain_suffix.mpr (.of_exact hne heq)
  case keyword =>
    intro x d hhead h
    have hcovers := matchesDomain_suffix.mp h
    exact matchesDomain_keyword.mpr
      ⟨hcovers.1, normalSuffix_ne_nil.mp hcovers.2.1, hcovers.infix hhead⟩
  case trans =>
    intro x y d hxy hyd
    exact matchesDomain_suffix.mpr
      ((matchesDomain_suffix.mp hxy).trans (matchesDomain_suffix.mp hyd))
  case category =>
    intro name d p h
    have hlonger : (p ++ "." ++ normalize d).toList = p.toList ++ '.' :: (normalize d).toList := by
      simp
    exact inCategory_behind_dot hlonger h
  case geosite =>
    intro name d p h
    obtain ⟨hne, hcategory⟩ := matchesDomain_category.mp h
    have hfront : (normalize d).toList.dropWhile Text.isBlank = (normalize d).toList := by
      rw [toList_normalize, dropWhile_normalList]
    have hlonger : (p ++ "." ++ normalize d).toList = p.toList ++ '.' :: (normalize d).toList := by
      simp
    obtain ⟨before, hbefore⟩ := normalList_behind_dot p.toList hfront hne
    rw [← hlonger] at hbefore
    have hlongerNe : normalList (p ++ "." ++ normalize d).toList ≠ [] := by
      rw [hbefore]
      simp
    rw [← toList_normalize (p ++ "." ++ normalize d), ← toList_normalize (normalize d)] at hbefore
    exact matchesDomain_category.mpr ⟨hlongerNe, inCategory_behind_dot hbefore hcategory⟩

attribute [local instance] Patterns.empty

/-- Names with dots and white space in odd places. -/
theorem matchesDomain_labels_odd :
    matchesDomain ("domain:" ++ " .Google.com.. ") "mail.google.com" = true ∧
    matchesDomain " .Google.com" "mail.google.com" = true ∧
    matchesDomain ("domain:" ++ "A..b.") "a..B" = true ∧
    matchesDomain ("keyword:" ++ "google.com") "mail.google.com" = true ∧
    matchesDomain ("domain:" ++ "com") "mail.google.com" = true ∧
    inCategory "google" (". " ++ "." ++ normalize "Google.com") = true ∧
    matchesDomain ("geosite:" ++ "google ") (". " ++ "." ++ normalize "Google.com") = true := by
  obtain ⟨hsuffix, hplain, hexact, hkeyword, htrans, hcategory, hgeosite⟩ := matchesDomain_labels
  exact ⟨(hsuffix _ _).mpr (by decide +kernel),
    (hplain _ _ (by decide +kernel)).mpr (by decide +kernel),
    hexact _ _ (by decide +kernel),
    hkeyword _ _ (by decide +kernel) (by decide +kernel),
    htrans _ "google.com" _ (by decide +kernel) (by decide +kernel),
    hcategory _ _ _ (by decide +kernel),
    hgeosite _ _ _ (by decide +kernel)⟩

end Rule
end ProxyPlan
