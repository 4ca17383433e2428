/-
ProxyPlan.Proofs.Text — trimming, cutting, and numbers in texts.

What is left after trimming neither begins nor ends with white space, so it is
trimmed already. A text is blank just when nothing is left of it. Digits are not
white space, and so a text that ends in a number needs no trimming there. Cutting
a text at every mark undoes joining pieces without a mark, and a cut at the first
mark undoes putting it behind such a piece.
-/
import Mathlib.Algebra.Group.Nat.Defs
import Mathlib.Data.List.DropRight
import ProxyPlan.Text.Ascii
import ProxyPlan.Text.Blank
import ProxyPlan.Text.Digit

namespace ProxyPlan.Text

/-! ## Trimming -/

theorem dropEndWhile_eq (p : Char → Bool) (cs : List Char) :
    dropEndWhile p cs = cs.rdropWhile p := rfl

theorem rdropWhile_append (p : Char → Bool) (xs ys : List Char) :
    (xs ++ ys).rdropWhile p =
      if ys.rdropWhile p = [] then xs.rdropWhile p else xs ++ ys.rdropWhile p := by
  simp only [List.rdropWhile, List.reverse_append, List.dropWhile_append, List.isEmpty_iff,
    List.reverse_eq_nil_iff]
  split <;> simp

/-- What is removed at one end does not depend on the other. -/
theorem dropWhile_rdropWhile (p : Char → Bool) (cs : List Char) :
    (cs.rdropWhile p).dropWhile p = (cs.dropWhile p).rdropWhile p := by
  induction cs with
  | nil => rfl
  | cons c rest ih =>
    have hcons := rdropWhile_append p [c] rest
    rw [List.singleton_append, List.rdropWhile_singleton] at hcons
    by_cases hc : p c = true
    · rw [hcons, List.dropWhile_cons_of_pos hc, ← ih]
      by_cases hnil : rest.rdropWhile p = []
      · rw [if_pos hnil, if_pos hc, hnil]
      · rw [if_neg hnil]
        exact List.dropWhile_cons_of_pos hc
    · have hkept : ∃ kept, (c :: rest).rdropWhile p = c :: kept := by
        rw [hcons, if_neg hc]
        split <;> exact ⟨_, rfl⟩
      obtain ⟨kept, hkept⟩ := hkept
      rw [List.dropWhile_cons_of_neg hc, hkept, List.dropWhile_cons_of_neg hc]

/-- A beginning of a text that begins otherwise does so too. -/
theorem dropWhile_of_prefix {p : Char → Bool} {cs ds : List Char} (h : ds <+: cs)
    (hcs : cs.dropWhile p = cs) : ds.dropWhile p = ds := by
  cases ds with
  | nil => rfl
  | cons d ds =>
    obtain ⟨rest, rfl⟩ := h
    refine List.dropWhile_cons_of_neg fun hd => ?_
    rw [List.cons_append, List.dropWhile_cons_of_pos hd] at hcs
    have hlength := congrArg List.length hcs
    have hle := (List.dropWhile_sublist p (l := ds ++ rest)).length_le
    simp only [List.length_cons] at hlength
    omega

theorem dropWhile_trimList (cs : List Char) : (trimList cs).dropWhile isBlank = trimList cs := by
  rw [trimList, dropEndWhile_eq, ← dropWhile_rdropWhile, List.dropWhile_idempotent]

theorem trimList_trimList (cs : List Char) : trimList (trimList cs) = trimList cs := by
  rw [trimList, dropWhile_trimList, trimList, dropEndWhile_eq, dropEndWhile_eq,
    List.rdropWhile_idempotent]

theorem trimList_dropEnd (cs : List Char) : trimList (cs.rdropWhile isBlank) = trimList cs := by
  rw [trimList, trimList, dropEndWhile_eq, dropEndWhile_eq, dropWhile_rdropWhile,
    List.rdropWhile_idempotent]

theorem trim_trim (s : String) : trim (trim s) = trim s := by
  simp [trim, trimList_trimList]

theorem trimList_eq_nil {cs : List Char} : trimList cs = [] ↔ ∀ c ∈ cs, isBlank c = true := by
  simp only [trimList, dropEndWhile_eq, List.rdropWhile_eq_nil_iff]
  constructor
  · intro h
    by_contra hall
    push Not at hall
    obtain ⟨c, hc, hblank⟩ := hall
    have hne : cs.dropWhile isBlank ≠ [] := by
      rw [Ne, List.dropWhile_eq_nil_iff]
      exact fun h => hblank (h c hc)
    have hhead := List.head_dropWhile_not isBlank hne
    rw [h _ (List.head_mem hne)] at hhead
    cases hhead
  · intro h c hc
    exact h c ((List.dropWhile_sublist isBlank).subset hc)

theorem blank_iff {s : String} : blank s = true ↔ trim s = "" := by
  rw [blank, List.all_eq_true, trim, String.ofList_eq_empty_iff, trimList_eq_nil]

theorem blank_trim (s : String) : blank (trim s) = blank s := by
  rw [Bool.eq_iff_iff, blank_iff, blank_iff, trim_trim]

/-- What is left of a text that is not blank is not blank and is trimmed. -/
theorem nonBlank?_eq_some {s t : String} :
    nonBlank? s = some t ↔ blank s = false ∧ trim s = t := by
  cases h : blank s <;> simp [nonBlank?, h]

theorem nonBlank?_self {s : String} (hblank : blank s = false) (htrim : trim s = s) :
    nonBlank? s = some s := nonBlank?_eq_some.mpr ⟨hblank, htrim⟩

/-- Something stands in the text, and no white space at its ends. -/
def Tight (s : String) : Prop := blank s = false ∧ trim s = s

instance (s : String) : Decidable (Tight s) := inferInstanceAs (Decidable (_ ∧ _))

theorem Tight.nonBlank? {s : String} (h : Tight s) : nonBlank? s = some s :=
  nonBlank?_self h.1 h.2

theorem tight_of_nonBlank? {s t : String} (h : nonBlank? s = some t) : Tight t := by
  obtain ⟨hblank, rfl⟩ := nonBlank?_eq_some.mp h
  exact ⟨by rw [blank_trim, hblank], trim_trim s⟩

/-- A text without white space at its ends is trimmed. -/
theorem tight_of_ends {s : String} {c d : Char} {cs ds : List Char} (hfirst : s.toList = c :: cs)
    (hlast : s.toList = ds ++ [d]) (hc : isBlank c = false) (hd : isBlank d = false) : Tight s where
  left := by
    rw [blank, hfirst, List.all_cons, hc, Bool.false_and]
  right := by
    have hfront : s.toList.dropWhile isBlank = s.toList := by
      rw [hfirst, List.dropWhile_cons_of_neg (by simp [hc])]
    have hback : s.toList.rdropWhile isBlank = s.toList := by
      rw [hlast, List.rdropWhile_concat_neg _ _ _ (by simp [hd])]
    rw [trim, trimList, hfront, dropEndWhile_eq, hback, String.ofList_toList]

/-- Looking twice shows the same. -/
theorem nonBlank?_of_nonBlank? {s t : String} (h : nonBlank? s = some t) :
    nonBlank? t = some t := by
  exact (tight_of_nonBlank? h).nonBlank?

theorem trimList_of_unblank {cs : List Char} (h : ∀ c ∈ cs, isBlank c = false) :
    trimList cs = cs := by
  have hnone : ∀ ds : List Char, (∀ c ∈ ds, isBlank c = false) → ds.dropWhile isBlank = ds := by
    intro ds hds
    cases ds with
    | nil => rfl
    | cons d rest => exact List.dropWhile_cons_of_neg (by simp [hds d List.mem_cons_self])
  rw [trimList, hnone cs h, dropEndWhile, hnone _ fun c hc => h c (List.mem_reverse.mp hc),
    List.reverse_reverse]

/-- White space on both sides is trimmed away. -/
theorem trimList_padded {front back : List Char} (hfront : ∀ c ∈ front, isBlank c = true)
    (hback : ∀ c ∈ back, isBlank c = true) (cs : List Char) :
    trimList (front ++ cs ++ back) = trimList cs := by
  have hend : (front ++ cs ++ back).rdropWhile isBlank = (front ++ cs).rdropWhile isBlank := by
    rw [rdropWhile_append, if_pos (List.rdropWhile_eq_nil_iff.mpr hback)]
  have hstart : (front ++ cs).dropWhile isBlank = cs.dropWhile isBlank := by
    rw [List.dropWhile_append, List.dropWhile_eq_nil_iff.mpr hfront]
    rfl
  rw [← trimList_dropEnd, hend, trimList_dropEnd, trimList, hstart, trimList]

/-- What is trimmed away is white space. -/
theorem exists_padding (cs : List Char) :
    ∃ front back, (∀ c ∈ front, isBlank c = true) ∧ (∀ c ∈ back, isBlank c = true) ∧
      cs = front ++ trimList cs ++ back := by
  refine ⟨cs.takeWhile isBlank, (cs.dropWhile isBlank).rtakeWhile isBlank, ?_, ?_, ?_⟩
  · exact fun c hc => List.mem_takeWhile_imp hc
  · exact fun c hc => List.mem_rtakeWhile_imp hc
  · rw [trimList, dropEndWhile_eq, List.append_assoc, List.rdropWhile_append_rtakeWhile,
      List.takeWhile_append_dropWhile]

/-! ## Cuts -/

theorem splitBy_eq (isMark : Char → Bool) (cs : List Char) :
    splitBy isMark cs = cs.splitOnP isMark := by
  induction cs with
  | nil => rfl
  | cons c rest ih =>
    rw [splitBy, List.splitOnP_cons_eq_if_modifyHead, ih]
    split
    · rfl
    · obtain ⟨piece, pieces, hpieces⟩ := List.exists_cons_of_ne_nil (rest.splitOnP_ne_nil isMark)
      rw [hpieces]
      rfl

theorem splitList_eq (mark : Char) (cs : List Char) : splitList mark cs = cs.splitOn mark :=
  splitBy_eq _ cs

theorem splitList_of_not_mem {mark : Char} {cs : List Char} (h : mark ∉ cs) :
    splitList mark cs = [cs] := by
  rw [splitList_eq, List.splitOn_eq_singleton h]

theorem splitList_append_mark (mark : Char) (cs ds : List Char) :
    splitList mark (cs ++ mark :: ds) = splitList mark cs ++ splitList mark ds := by
  simp only [splitList_eq]
  exact List.splitOnP_append_cons cs ds (beq_self_eq_true mark)

theorem splitOnce?_eq_none {mark : Char} {cs : List Char} :
    splitOnce? mark cs = none ↔ mark ∉ cs := by
  induction cs with
  | nil => simp [splitOnce?]
  | cons c rest ih =>
    rw [splitOnce?]
    split
    case isTrue hc => simp [hc]
    case isFalse hc => simp [ih, Ne.symm hc]

/-- The cut is made at the first mark. -/
theorem splitOnce?_append {mark : Char} {before : List Char} (h : mark ∉ before)
    (after : List Char) : splitOnce? mark (before ++ mark :: after) = some (before, after) := by
  induction before with
  | nil => exact if_pos rfl
  | cons c rest ih =>
    obtain ⟨hc, hrest⟩ := List.ne_and_not_mem_of_not_mem_cons h
    rw [List.cons_append, splitOnce?, if_neg (Ne.symm hc), ih hrest]
    rfl

theorem of_splitOnce? {mark : Char} {cs before after : List Char}
    (h : splitOnce? mark cs = some (before, after)) : cs = before ++ mark :: after := by
  induction cs generalizing before with
  | nil => cases h
  | cons c rest ih =>
    rw [splitOnce?] at h
    split at h
    case isTrue hc =>
      cases h
      rw [hc]
      rfl
    case isFalse hc =>
      obtain ⟨⟨before', after'⟩, hrest, heq⟩ := Option.map_eq_some_iff.mp h
      cases heq
      rw [ih hrest]
      rfl

theorem mem_intercalate {α : Type} {sep : List α} {words : List (List α)} {c : α}
    (h : c ∈ sep.intercalate words) : c ∈ sep ∨ ∃ word ∈ words, c ∈ word := by
  induction words with
  | nil => cases h
  | cons word rest ih =>
    cases rest with
    | nil =>
      rw [List.intercalate_singleton] at h
      exact .inr ⟨word, List.mem_cons_self, h⟩
    | cons next rest =>
      rw [List.intercalate_cons_cons, List.mem_append, List.mem_append] at h
      rcases h with (hword | hsep) | hrest
      · exact .inr ⟨word, List.mem_cons_self, hword⟩
      · exact .inl hsep
      · obtain hsep | ⟨other, hother, hc⟩ := ih hrest
        · exact .inl hsep
        · exact .inr ⟨other, List.mem_cons_of_mem _ hother, hc⟩

/-! ## Letters -/

/-- A capital and its small letter are thirty-two apart. -/
theorem toNat_lowerChar {c : Char} (h : 'A' ≤ c ∧ c ≤ 'Z') :
    (lowerChar c).toNat = c.toNat + 32 := by
  have hhigh : c.toNat ≤ 90 := h.2
  have hvalid : (c.toNat + 32).isValidChar := .inl (by omega)
  rw [lowerChar, if_pos h, Char.ofNat, dif_pos hvalid]
  rfl

/-- A letter stays a letter, and all else stays itself. -/
theorem lowerChar_cases (c : Char) :
    lowerChar c = c ∨ (65 ≤ c.toNat ∧ c.toNat ≤ 90) ∧ (lowerChar c).toNat = c.toNat + 32 := by
  by_cases h : 'A' ≤ c ∧ c ≤ 'Z'
  · exact .inr ⟨h, toNat_lowerChar h⟩
  · exact .inl (if_neg h)

theorem isBlank_lowerChar (c : Char) : isBlank (lowerChar c) = isBlank c := by
  obtain h | ⟨⟨hlow, hhigh⟩, h⟩ := lowerChar_cases c
  · rw [h]
  · have hletter : ∀ d : Char, 65 ≤ d.toNat → d.toNat ≤ 122 → isBlank d = false := by
      intro d hd hd'
      rw [Bool.eq_false_iff]
      intro hblank
      simp only [isBlank, Bool.or_eq_true, Bool.and_eq_true, decide_eq_true_eq, beq_iff_eq] at hblank
      omega
    rw [hletter c hlow (by omega), hletter _ (by omega) (by omega)]

theorem lowerChar_eq_dot {c : Char} : lowerChar c = '.' ↔ c = '.' := by
  obtain h | ⟨⟨hlow, -⟩, h⟩ := lowerChar_cases c
  · rw [h]
  · have hdot : ('.' : Char).toNat = 46 := rfl
    refine iff_of_false (fun heq => ?_) fun heq => ?_
    · rw [heq, hdot] at h
      omega
    · rw [heq, hdot] at hlow
      omega

/-! ## Numbers -/

/-- Digits are not white space. -/
theorem isBlank_digit {c : Char} (h : c.isDigit = true) : isBlank c = false := by
  have hrange : 48 ≤ c.toNat ∧ c.toNat ≤ 57 := by
    rw [Char.isDigit_iff_toNat] at h
    simpa using h
  rw [Bool.eq_false_iff]
  intro hblank
  simp only [isBlank, Bool.or_eq_true, Bool.and_eq_true, decide_eq_true_eq, beq_iff_eq] at hblank
  omega

/-- A number of thirty-two bits is itself. -/
theorem word?_of_lt {n : Nat} (h : n < 2 ^ 32) : word? n = some (.ofNat n) := if_pos h

end ProxyPlan.Text
