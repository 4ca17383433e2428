/-
ProxyPlan.Proofs.PortLists — what a list of ports says.

A list of ports is well formed just when it is made of entries joined by commas
(`isPortList_iff`), an entry being a numeral or two with a hyphen between them. Cutting the list at
commas and an entry at its first hyphen gives back what was put together, because no numeral has
either mark in it. White space around the list belongs to the outer entries only, where trimming
takes it away again (`map_trimList_split`).

The digits of a numeral may be of any script and there may be any number of them, but only ASCII
digits and numbers of thirty-two bits are read (`readWord?_digits`). An entry with such numerals
matches the ports that it lists. Any other entry of a well-formed list is passed over in silence.
-/
import Mathlib.Data.Nat.Digits.Defs
import Mathlib.Data.Set.List
import ProxyPlan.Proofs.Audit
import ProxyPlan.Proofs.Text

namespace ProxyPlan

/-! ## Digits -/

namespace Text

/-- What holds of the members of all runs of digits holds of every digit. -/
theorem of_isDecimal {p : Char → Bool} (h : ∀ first ∈ decimalZeros, ∀ d ∈ List.range 10,
    p (.ofNat (first + d)) = true) {c : Char} (hc : isDecimal c = true) : p c = true := by
  obtain ⟨first, hfirst, hrange⟩ := List.any_eq_true.mp hc
  simp only [Bool.and_eq_true, decide_eq_true_eq] at hrange
  have hmember := h first hfirst (c.toNat - first) (List.mem_range.mpr (by omega))
  rwa [Nat.add_sub_cancel' hrange.1, Char.ofNat_toNat] at hmember

/-- Digits of no script are white space, or serve as a mark or a sign. -/
theorem unmarked_of_isDecimal {c : Char} (h : isDecimal c = true) :
    isBlank c = false ∧ c ≠ ',' ∧ c ≠ '-' ∧ c ≠ '+' := by
  have hnone := of_isDecimal
    (p := fun c => !isBlank c && c != ',' && c != '-' && c != '+') (by decide +kernel) h
  simpa [and_assoc] using hnone

theorem isDigit_iff {c : Char} : c.isDigit = true ↔ '0' ≤ c ∧ c ≤ '9' := by
  simp only [Char.isDigit, Bool.and_eq_true, decide_eq_true_eq]
  rfl

theorem isDecimal_of_isDigit {c : Char} (h : c.isDigit = true) : isDecimal c = true := by
  have hrange : 48 ≤ c.toNat ∧ c.toNat ≤ 57 := isDigit_iff.mp h
  refine List.any_eq_true.mpr ⟨48, List.mem_cons_self, ?_⟩
  simp only [Bool.and_eq_true, decide_eq_true_eq]
  omega

/-- Digits read onto a number are further places of it. -/
theorem readDigits?_eq {cs : List Char} (h : ∀ c ∈ cs, c.isDigit = true) (sofar : Nat) :
    readDigits? sofar cs =
      some (sofar * 10 ^ cs.length + Nat.ofDigits 10 (cs.reverse.map fun c => c.toNat - 48)) := by
  induction cs generalizing sofar with
  | nil => simp [readDigits?]
  | cons c rest ih =>
    obtain ⟨hc, hrest⟩ := List.forall_mem_cons.mp h
    have hvalue : digitValue? c = some (c.toNat - 48) := if_pos (isDigit_iff.mp hc)
    rw [readDigits?, hvalue, Option.bind_some, ih hrest, List.reverse_cons, List.map_append,
      Nat.ofDigits_append, List.length_map, List.length_reverse, List.map_singleton,
      Nat.ofDigits_singleton, List.length_cons, Option.some.injEq]
    ring

theorem readDigits?_eq_none {cs : List Char} {d : Char} (hd : d ∈ cs) (hnot : d.isDigit = false)
    (sofar : Nat) : readDigits? sofar cs = none := by
  induction cs generalizing sofar with
  | nil => cases hd
  | cons c rest ih =>
    rw [readDigits?]
    obtain rfl | hd := List.mem_cons.mp hd
    · have hvalue : digitValue? d = none := if_neg (by simp [← isDigit_iff, hnot])
      rw [hvalue]
      rfl
    · cases digitValue? c with
      | none => rfl
      | some n => exact ih hd _

end Text

namespace Rule

/-! ## The form of a list -/

/-- A numeral of digits of any script. -/
structure PortNumeral where
  digits : List Char
  digits_ne_nil : digits ≠ []
  isDecimal : ∀ c ∈ digits, Text.isDecimal c = true

/-- A numeral in ASCII digits. -/
def PortNumeral.ascii (cs : List Char) (hne : cs ≠ []) (h : cs.all Char.isDigit = true) :
    PortNumeral :=
  ⟨cs, hne, fun c hc => Text.isDecimal_of_isDigit (List.all_eq_true.mp h c hc)⟩

/-- An entry of a list of ports. -/
inductive PortEntry where
  | port (n : PortNumeral)
  | range (low high : PortNumeral)

namespace PortEntry

/-- An entry as it is written. -/
def text : PortEntry → List Char
  | .port n => n.digits
  | .range low high => low.digits ++ '-' :: high.digits

/-! ### Characters of entries -/

variable {e : PortEntry} {c : Char}

theorem mem_text (h : c ∈ e.text) : c = '-' ∨ Text.isDecimal c = true := by
  cases e with
  | port n => exact .inr (n.isDecimal c h)
  | range low high =>
    obtain hlow | hmark := List.mem_append.mp h
    · exact .inr (low.isDecimal c hlow)
    · exact (List.mem_cons.mp hmark).imp_right (high.isDecimal c)

theorem comma_not_mem_text (e : PortEntry) : ',' ∉ e.text := by
  intro h
  obtain hmark | hdigit := mem_text h
  · cases hmark
  · exact (Text.unmarked_of_isDecimal hdigit).2.1 rfl

theorem isBlank_of_mem_text (h : c ∈ e.text) : Text.isBlank c = false := by
  obtain rfl | hdigit := mem_text h
  · decide
  · exact (Text.unmarked_of_isDecimal hdigit).1

theorem trimList_text (e : PortEntry) : Text.trimList e.text = e.text :=
  Text.trimList_of_unblank fun _ => isBlank_of_mem_text

theorem text_ne_nil (e : PortEntry) : e.text ≠ [] := by
  cases e with
  | port n => exact n.digits_ne_nil
  | range low high => exact List.append_ne_nil_of_right_ne_nil _ (List.cons_ne_nil _ _)

end PortEntry

theorem PortNumeral.hyphen_not_mem (n : PortNumeral) : '-' ∉ n.digits := fun h =>
  (Text.unmarked_of_isDecimal (n.isDecimal _ h)).2.2.1 rfl

theorem PortNumeral.trimList_digits (n : PortNumeral) : Text.trimList n.digits = n.digits :=
  (PortEntry.port n).trimList_text

theorem splitOnce?_port (n : PortNumeral) : Text.splitOnce? '-' (PortEntry.port n).text = none :=
  Text.splitOnce?_eq_none.mpr n.hyphen_not_mem

theorem splitOnce?_range (low high : PortNumeral) :
    Text.splitOnce? '-' (PortEntry.range low high).text = some (low.digits, high.digits) :=
  Text.splitOnce?_append low.hyphen_not_mem high.digits

/-! ### Well-formed lists -/

/-- A list of ports as it is written. -/
def portList (es : List PortEntry) : String :=
  String.ofList ([','].intercalate (es.map PortEntry.text))

theorem isNumeral_iff {cs : List Char} :
    isNumeral cs = true ↔ ∃ n : PortNumeral, n.digits = cs := by
  rw [isNumeral, Bool.and_eq_true, Bool.not_eq_true', List.isEmpty_eq_false_iff,
    List.all_eq_true]
  constructor
  · exact fun h => ⟨⟨cs, h.1, h.2⟩, rfl⟩
  · rintro ⟨n, rfl⟩
    exact ⟨n.digits_ne_nil, n.isDecimal⟩

theorem isEntry_iff {cs : List Char} : isEntry cs = true ↔ ∃ e : PortEntry, e.text = cs := by
  constructor
  · intro h
    rw [isEntry] at h
    split at h
    case h_1 =>
      obtain ⟨n, rfl⟩ := isNumeral_iff.mp h
      exact ⟨.port n, rfl⟩
    case h_2 hcut =>
      rw [Bool.and_eq_true] at h
      obtain ⟨low, rfl⟩ := isNumeral_iff.mp h.1
      obtain ⟨high, rfl⟩ := isNumeral_iff.mp h.2
      exact ⟨.range low high, (Text.of_splitOnce? hcut).symm⟩
  · rintro ⟨e, rfl⟩
    rw [isEntry]
    cases e with
    | port n =>
      rw [splitOnce?_port]
      exact isNumeral_iff.mpr ⟨n, rfl⟩
    | range low high =>
      rw [splitOnce?_range]
      exact Bool.and_eq_true_iff.mpr ⟨isNumeral_iff.mpr ⟨low, rfl⟩, isNumeral_iff.mpr ⟨high, rfl⟩⟩

theorem splitList_entries {es : List PortEntry} (hne : es ≠ []) :
    Text.splitList ',' ([','].intercalate (es.map PortEntry.text)) = es.map PortEntry.text := by
  rw [Text.splitList_eq]
  refine List.splitOn_intercalate _ ?_ (by simpa using hne)
  rintro _ hmem
  obtain ⟨e, -, rfl⟩ := List.mem_map.mp hmem
  exact e.comma_not_mem_text

/-- A list is well formed if it is made of entries, with white space around them at most. -/
theorem isPortList_iff {spec : String} :
    isPortList spec = true ↔ ∃ es ≠ [], Text.trim spec = portList es := by
  have htrim : ∀ es, Text.trim spec = portList es ↔
      Text.trimList spec.toList = [','].intercalate (es.map PortEntry.text) := by
    intro es
    rw [Text.trim, portList, String.ofList_inj]
  simp only [htrim, isPortList, List.all_eq_true, isEntry_iff]
  constructor
  · intro h
    -- the pieces are entries one by one, so they are a list of entries
    have hrange : Text.splitList ',' (Text.trimList spec.toList) ∈
        Set.range (List.map PortEntry.text) := by
      rw [Set.range_list_map]
      exact h
    obtain ⟨es, hes⟩ := hrange
    rw [Text.splitList_eq] at hes
    refine ⟨es, ?_, ?_⟩
    · rintro rfl
      exact List.splitOnP_ne_nil _ _ hes.symm
    · rw [hes, List.intercalate_splitOn]
  · rintro ⟨es, hne, hlist⟩ piece hpiece
    rw [hlist, splitList_entries hne] at hpiece
    obtain ⟨e, -, htext⟩ := List.mem_map.mp hpiece
    exact ⟨e, htext⟩

/-- Matching finds the entries of a list, whatever white space is around it. -/
theorem map_trimList_split {front back : List Char} (hfront : ∀ c ∈ front, Text.isBlank c = true)
    (hback : ∀ c ∈ back, Text.isBlank c = true) {es : List PortEntry} (hne : es ≠ []) :
    (Text.splitList ',' (front ++ [','].intercalate (es.map PortEntry.text) ++ back)).map
      Text.trimList = es.map PortEntry.text := by
  have hcomma : ∀ cs : List Char, (∀ c ∈ cs, Text.isBlank c = true) → ',' ∉ cs := by
    intro cs hblank hmem
    exact absurd (hblank _ hmem) (by decide)
  induction es generalizing front with
  | nil => exact absurd rfl hne
  | cons e rest ih =>
    have htrim := Text.trimList_padded hfront hback e.text
    cases rest with
    | nil =>
      have hnone : ',' ∉ front ++ e.text ++ back := by
        simp [hcomma front hfront, hcomma back hback, e.comma_not_mem_text]
      rw [List.map_singleton, List.intercalate_singleton, Text.splitList_eq,
        List.splitOn_eq_singleton hnone, List.map_singleton, htrim, e.trimList_text]
    | cons e' rest =>
      have hnone : ',' ∉ front ++ e.text := by
        simp [hcomma front hfront, e.comma_not_mem_text]
      have hnil : ∀ c ∈ [], Text.isBlank c = true := by simp
      have hfirst := Text.trimList_padded hfront hnil e.text
      have hlater := ih hnil (List.cons_ne_nil _ _)
      rw [List.append_nil] at hfirst
      rw [List.nil_append] at hlater
      have hcut : front ++ [','].intercalate ((e :: e' :: rest).map PortEntry.text) ++ back =
          (front ++ e.text) ++
            ',' :: ([','].intercalate ((e' :: rest).map PortEntry.text) ++ back) := by
        simp [List.intercalate_cons_cons]
      rw [hcut, Text.splitList_append_mark, Text.splitList_of_not_mem hnone, List.map_append,
        hlater, List.map_singleton, hfirst, e.trimList_text]
      rfl

/-! ## What is read -/

namespace PortNumeral

/-- The number that ASCII digits spell. -/
def value (n : PortNumeral) : Nat := Nat.ofDigits 10 (n.digits.reverse.map fun c => c.toNat - 48)

/-- A number of thirty-two bits in ASCII digits. -/
def IsWord (n : PortNumeral) : Prop := n.digits.all Char.isDigit = true ∧ n.value < 2 ^ 32

instance (n : PortNumeral) : Decidable n.IsWord := inferInstanceAs (Decidable (_ ∧ _))

/-- Numerals in ASCII digits are read if they fit, and no others are. -/
theorem readWord?_digits (n : PortNumeral) :
    Text.readWord? n.digits = if n.IsWord then some (.ofNat n.value) else none := by
  have hsign : ∀ cs, n.digits ≠ '+' :: cs := by
    intro cs hcs
    have hplus := n.isDecimal '+' (hcs ▸ List.mem_cons_self)
    exact (Text.unmarked_of_isDecimal hplus).2.2.2 rfl
  have hread : Text.readWord? n.digits = (Text.readDigits? 0 n.digits).bind Text.word? := by
    cases hdigits : n.digits with
    | nil => exact absurd hdigits n.digits_ne_nil
    | cons c rest =>
      rw [Text.readWord?]
      · rfl
      · exact fun cs hcs => hsign cs (hdigits.trans hcs)
  rw [hread]
  by_cases hascii : n.digits.all Char.isDigit = true
  case pos =>
    rw [Text.readDigits?_eq (List.all_eq_true.mp hascii), Nat.zero_mul, Nat.zero_add,
      Option.bind_some]
    refine if_congr ?_ rfl rfl
    exact (and_iff_right hascii).symm
  case neg =>
    rw [if_neg fun h => hascii h.1]
    obtain ⟨d, hd, hnot⟩ := List.all_eq_false.mp (Bool.eq_false_iff.mpr hascii)
    rw [Text.readDigits?_eq_none hd (Bool.eq_false_iff.mpr hnot)]
    rfl

theorem toNat_ofNat_value {n : PortNumeral} (h : n.IsWord) :
    (UInt32.ofNat n.value).toNat = n.value :=
  UInt32.toNat_ofNat_of_lt' h.2

end PortNumeral

namespace PortEntry

/-- All numerals of an entry are read. -/
def IsRead : PortEntry → Prop
  | .port n => n.IsWord
  | .range low high => low.IsWord ∧ high.IsWord

/-- An entry lists a port. -/
def Lists (port : Nat) : PortEntry → Prop
  | .port n => n.value = port
  | .range low high => low.value ≤ port ∧ port ≤ high.value

end PortEntry

instance (e : PortEntry) : Decidable e.IsRead :=
  match e with
  | .port n => inferInstanceAs (Decidable n.IsWord)
  | .range low high => inferInstanceAs (Decidable (low.IsWord ∧ high.IsWord))

instance (port : Nat) (e : PortEntry) : Decidable (e.Lists port) :=
  match e with
  | .port n => inferInstanceAs (Decidable (n.value = port))
  | .range low high => inferInstanceAs (Decidable (low.value ≤ port ∧ port ≤ high.value))

/-- An entry matches the ports that it lists if it is read, and none if it is not. -/
theorem entryMatches_text (port : UInt16) (e : PortEntry) :
    entryMatches port e.text = true ↔ e.IsRead ∧ e.Lists port.toNat := by
  rw [entryMatches]
  cases e with
  | port n =>
    rw [splitOnce?_port]
    show (Text.readWord? n.digits == some port.toUInt32) = true ↔ n.IsWord ∧ n.value = port.toNat
    rw [n.readWord?_digits]
    split
    case isTrue hword =>
      rw [beq_iff_eq, Option.some.injEq, ← UInt32.toNat_inj, PortNumeral.toNat_ofNat_value hword,
        UInt16.toNat_toUInt32, and_iff_right hword]
    case isFalse hword => simp [hword]
  | range low high =>
    rw [splitOnce?_range]
    show _ ↔ (low.IsWord ∧ high.IsWord) ∧ low.value ≤ port.toNat ∧ port.toNat ≤ high.value
    simp only [low.trimList_digits, high.trimList_digits, PortNumeral.readWord?_digits]
    by_cases hread : low.IsWord ∧ high.IsWord
    case pos =>
      obtain ⟨hlow, hhigh⟩ := hread
      rw [if_pos hlow, if_pos hhigh, and_iff_right ⟨hlow, hhigh⟩]
      simp only [Bool.and_eq_true, decide_eq_true_eq, UInt32.le_iff_toNat_le,
        PortNumeral.toNat_ofNat_value hlow, PortNumeral.toNat_ofNat_value hhigh,
        UInt16.toNat_toUInt32]
    case neg =>
      refine iff_of_false ?_ fun h => hread h.1
      obtain hlow | hhigh := not_and_or.mp hread
      · simp [hlow]
      · simp [hhigh]

/-! ## What is matched -/

/-- The entries that matching finds in a list. -/
def entriesOf (spec : String) : List (List Char) :=
  ((Text.splitList ',' spec.toList).map Text.trimList).filter fun entry => !entry.isEmpty

/-- All numbers in an entry are read. -/
def entryReads (entry : List Char) : Bool :=
  match Text.splitOnce? '-' entry with
  | some (low, high) =>
    (Text.readWord? (Text.trimList low)).isSome && (Text.readWord? (Text.trimList high)).isSome
  | none => (Text.readWord? entry).isSome

theorem matchesPort_eq (spec : String) (port : UInt16) :
    matchesPort spec port = (entriesOf spec).any (entryMatches port) :=
  List.any_filter.symm

theorem entryReads_text (e : PortEntry) : entryReads e.text = true ↔ e.IsRead := by
  have hisSome : ∀ n : PortNumeral, (Text.readWord? n.digits).isSome = true ↔ n.IsWord := by
    intro n
    rw [n.readWord?_digits]
    split <;> simp [*]
  rw [entryReads]
  cases e with
  | port n =>
    rw [splitOnce?_port]
    exact hisSome n
  | range low high =>
    rw [splitOnce?_range]
    simp only [low.trimList_digits, high.trimList_digits, Bool.and_eq_true, hisSome]
    rfl

theorem entriesOf_eq {spec : String} {es : List PortEntry} (hne : es ≠ [])
    (h : Text.trim spec = portList es) : entriesOf spec = es.map PortEntry.text := by
  obtain ⟨front, back, hfront, hback, hpadded⟩ := Text.exists_padding spec.toList
  rw [Text.trim, portList, String.ofList_inj] at h
  rw [entriesOf, hpadded, h, map_trimList_split hfront hback hne, List.filter_eq_self]
  rintro _ hmem
  obtain ⟨e, -, rfl⟩ := List.mem_map.mp hmem
  simp [e.text_ne_nil]

theorem matchesPort_iff {spec : String} {es : List PortEntry} (hne : es ≠ [])
    (h : Text.trim spec = portList es) (port : UInt16) :
    matchesPort spec port = true ↔ ∃ e ∈ es, e.IsRead ∧ e.Lists port.toNat := by
  simp only [matchesPort_eq, entriesOf_eq hne h, List.any_map, List.any_eq_true,
    Function.comp_apply, entryMatches_text]

/-! ### Spelled lists -/

theorem trim_portList (es : List PortEntry) : Text.trim (portList es) = portList es := by
  rw [Text.trim, portList, String.toList_ofList, Text.trimList_of_unblank]
  intro c hc
  obtain hmark | ⟨_, hmem, hc⟩ := Text.mem_intercalate hc
  · obtain rfl := List.mem_singleton.mp hmark
    decide
  · obtain ⟨e, -, rfl⟩ := List.mem_map.mp hmem
    exact PortEntry.isBlank_of_mem_text hc

/-- A list of numbers and ranges in ASCII digits is well formed and matches the ports that it
lists. -/
theorem matchesPort_spelled {es : List PortEntry} (hne : es ≠ []) (hread : ∀ e ∈ es, e.IsRead) :
    isPortList (portList es) = true ∧
      ∀ port : UInt16, matchesPort (portList es) port = true ↔ ∃ e ∈ es, e.Lists port.toNat := by
  have htrim := trim_portList es
  refine ⟨isPortList_iff.mpr ⟨es, hne, htrim⟩, fun port => ?_⟩
  rw [matchesPort_iff hne htrim]
  exact exists_congr fun e => and_congr_right fun he => and_iff_right (hread e he)

/-- Leading zeros, a range that lists nothing, and one beyond all ports. -/
def spelled : List PortEntry :=
  [.port (.ascii ['0', '0', '4', '4', '3'] (by decide) (by decide)),
   .range (.ascii ['8', '0'] (by decide) (by decide))
     (.ascii ['0', '8', '1'] (by decide) (by decide)),
   .range (.ascii ['9'] (by decide) (by decide)) (.ascii ['8'] (by decide) (by decide)),
   .range (.ascii ['7', '0', '0', '0', '0'] (by decide) (by decide))
     (.ascii ['4', '2', '9', '4', '9', '6', '7', '2', '9', '5'] (by decide) (by decide))]

theorem matchesPort_spelled_zeros :
    portList spelled = "00443,80-081,9-8,70000-4294967295" ∧
      isPortList "00443,80-081,9-8,70000-4294967295" = true ∧
      matchesPort "00443,80-081,9-8,70000-4294967295" 81 = true ∧
      matchesPort "00443,80-081,9-8,70000-4294967295" 9 = false := by
  have htext : portList spelled = "00443,80-081,9-8,70000-4294967295" := by decide
  have hspelled := @matchesPort_spelled spelled (by decide) (by decide)
  rw [htext] at hspelled
  refine ⟨htext, hspelled.1, (hspelled.2 81).mpr (by decide), ?_⟩
  rw [Bool.eq_false_iff]
  exact fun h => absurd ((hspelled.2 9).mp h) (by decide)

/-! ### Accepted lists -/

theorem exists_badPortList {f : Audit.Finding} (h : f.code = "N006") :
    ∃ tag spec, f = .badPortList tag spec := by
  cases f <;> simp_all [Audit.Finding.code]

theorem badPortList_mem_iff {c : Routing} {tag spec : String} :
    .badPortList tag spec ∈ Audit.routingFindings c ↔
      c.predicates.port? = some spec ∧ isPortList spec = false ∧ tag = c.tag := by
  unfold Audit.routingFindings
  rw [List.mem_append]
  constructor
  · rintro (hport | hnetwork)
    · split at hport
      case h_1 listed hlisted =>
        obtain ⟨hbad, heq⟩ := Audit.mem_when.mp hport
        cases heq
        exact ⟨hlisted, by simpa using hbad, rfl⟩
      case h_2 => cases hport
    · split at hnetwork <;> simp at hnetwork
  · rintro ⟨hlisted, hbad, rfl⟩
    rw [hlisted]
    exact .inl (Audit.mem_when.mpr ⟨by rw [hbad]; rfl, rfl⟩)

/-- The ports of a routing node are complained of just when they are no well-formed list. -/
theorem hasPortIssue_iff {n : Node} {c : Routing} (hc : n.routing? = some c) :
    (∃ i ∈ Audit.nodeIssues n, i.code = "N006") ↔
      ∃ spec, c.predicates.port? = some spec ∧ isPortList spec = false := by
  have hfindings : Audit.roleFindings n.role = Audit.routingFindings c := by
    rw [Node.routing?_eq_some.mp hc]
    rfl
  simp only [Audit.nodeIssues, hfindings, List.mem_map, List.mem_append]
  constructor
  · rintro ⟨_, ⟨f, hf, rfl⟩, hcode⟩
    obtain ⟨tag, spec, rfl⟩ := exists_badPortList hcode
    obtain huntagged | hf := hf
    · split at huntagged <;> simp at huntagged
    · obtain ⟨hspec, hbad, -⟩ := badPortList_mem_iff.mp hf
      exact ⟨spec, hspec, hbad⟩
  · rintro ⟨spec, hspec, hbad⟩
    exact ⟨_, ⟨.badPortList c.tag spec, .inr (badPortList_mem_iff.mpr ⟨hspec, hbad, rfl⟩), rfl⟩,
      rfl⟩

/-- What is accepted as a list of ports, in a routing node or anywhere, consists of entries. Just
those are read whose numerals are in ASCII digits and fit thirty-two bits; these match the ports
that they list, and the others match none. -/
theorem isPortList_readings (spec : String) :
    (isPortList spec = true → ∃ es ≠ [], Text.trim spec = portList es ∧
      entriesOf spec = es.map PortEntry.text ∧ (∀ e ∈ es, entryReads e.text = true ↔ e.IsRead) ∧
      ∀ port, matchesPort spec port = true ↔ ∃ e ∈ es, e.IsRead ∧ e.Lists port.toNat) ∧
    ∀ (n : Node) c, n.routing? = some c → c.predicates.port? = some spec →
      (∀ i ∈ Audit.nodeIssues n, i.code ≠ "N006") → isPortList spec = true := by
  constructor
  case left =>
    intro h
    obtain ⟨es, hne, htrim⟩ := isPortList_iff.mp h
    exact ⟨es, hne, htrim, entriesOf_eq hne htrim, fun e _ => entryReads_text e,
      matchesPort_iff hne htrim⟩
  case right =>
    intro n c hc hspec hquiet
    by_contra hnot
    obtain ⟨i, hi, hcode⟩ := (hasPortIssue_iff hc).mpr ⟨spec, hspec, by simpa using hnot⟩
    exact hquiet i hi hcode

/-- A routing node that asks for ports only. -/
def portNode (spec : String) : Node :=
  ⟨"ports", .origin, .routing ⟨"ports", { Predicates.none with port := some spec }⟩, none⟩

theorem isPortList_readings_mixed :
    (∃ es ≠ [], Text.trim " 443,0-4294967296" = portList es ∧
      entriesOf " 443,0-4294967296" = es.map PortEntry.text ∧
      (∀ e ∈ es, entryReads e.text = true ↔ e.IsRead) ∧
      ∀ port, matchesPort " 443,0-4294967296" port = true ↔
        ∃ e ∈ es, e.IsRead ∧ e.Lists port.toNat) ∧
    (∀ i ∈ Audit.nodeIssues (portNode "443,0-4294967296 "), i.code ≠ "N006") ∧
    isPortList "443,0-4294967296" = true := by
  have hquiet : ∀ i ∈ Audit.nodeIssues (portNode "443,0-4294967296 "), i.code ≠ "N006" := by
    decide +kernel
  exact ⟨(isPortList_readings " 443,0-4294967296").1 (by decide +kernel), hquiet,
    (isPortList_readings "443,0-4294967296").2 (portNode "443,0-4294967296 ") _ rfl
      (by decide +kernel) hquiet⟩

/-- Two lists that are accepted, and have an entry that is not read: a range of all ports with an
end that does not fit, and a port in Arabic digits. No port matches, and the node is not complained
of. -/
theorem accepted_unread :
    (isPortList "0-4294967296" = true ∧
      (∃ entry ∈ entriesOf "0-4294967296", entryReads entry = false) ∧
      Audit.nodeIssues (portNode "0-4294967296") = [] ∧
      ∀ port, matchesPort "0-4294967296" port = false) ∧
    isPortList "\u0664\u0664\u0663" = true ∧
      (∃ entry ∈ entriesOf "\u0664\u0664\u0663", entryReads entry = false) ∧
      Audit.nodeIssues (portNode "\u0664\u0664\u0663") = [] ∧
      ∀ port, matchesPort "\u0664\u0664\u0663" port = false := by
  refine ⟨⟨by decide +kernel, by decide +kernel, by decide +kernel, fun port => rfl⟩,
    by decide +kernel, by decide +kernel, by decide +kernel, fun port => rfl⟩

end Rule
end ProxyPlan
