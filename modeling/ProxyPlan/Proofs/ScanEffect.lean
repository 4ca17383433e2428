/-
ProxyPlan.Proofs.ScanEffect — what one character does to a scan.

A scan looks at the innermost open containers only, so what it does is the same whatever stands
around these. One character moves on, closes a value or halts at a place that nobody gets past
(`step_effect`), and in each case `Scan.Effect` says so for every stack that may lie below. What
holds after every prefix of a text can thereby be shown by going through these few cases, and no
longer through all places and characters.
-/
import ProxyPlan.Proofs.WrittenNumber

namespace ProxyPlan.Json

/-! ## Parts of trees -/

namespace Tree

/-- What stands directly in a list or an object. -/
def parts : Tree → List Tree
  | .list items _ => items
  | .object fields _ => fields.map Prod.snd
  | _ => []

/-- Neither a list nor an object. -/
def isPlain : Tree → Bool
  | .list _ _ | .object _ _ => false
  | _ => true

/-- A tree that stands somewhere in another one. -/
inductive Within : Tree → Tree → Prop
  | here (t : Tree) : Within t t
  | part {t u v : Tree} : u ∈ v.parts → Within t u → Within t v

end Tree

/-- The trees that an open container holds so far. -/
def Frame.held : Frame → List Tree
  | .list done => done
  | .object done _ | .stray done => done.map Prod.snd

/-! ## Trees with a fault -/

namespace Tree

/-- The tree is of no value that is at hand whole. -/
def Faulty (t : Tree) : Prop := ∀ v, t ≠ ofJson v

theorem faulty_broken (begun : Option Char) (read skipped : Fault) :
    (broken begun read skipped).Faulty := by
  intro v h
  cases v <;> simp [ofJson] at h

theorem faulty_list {items : List Tree} {ending : Ending} (h : ending ≠ .closed) :
    (list items ending).Faulty := by
  intro v hv
  cases v <;> simp [ofJson, h] at hv

theorem faulty_object {fields : List (Except Fault String × Tree)} {ending : Ending}
    (h : ending ≠ .closed) : (object fields ending).Faulty := by
  intro v hv
  cases v <;> simp [ofJson, h] at hv

theorem ofItems_eq_map (items : List Json) : ofItems items = items.map ofJson := by
  induction items with
  | nil => rfl
  | cons v rest ih => rw [ofItems, ih, List.map_cons]

theorem ofFields_eq_map (fields : List (String × Json)) :
    ofFields fields = fields.map fun f => (.ok f.1, ofJson f.2) := by
  induction fields with
  | nil => rfl
  | cons f rest ih => rw [ofFields, ih, List.map_cons]

theorem mem_parts_list {v : Json} {items : List Json} (h : v ∈ items) :
    ofJson v ∈ (ofJson (.list items)).parts := by
  rw [ofJson, parts, ofItems_eq_map]
  exact List.mem_map_of_mem h

theorem mem_parts_object {name : String} {v : Json} {fields : List (String × Json)}
    (h : (name, v) ∈ fields) : ofJson v ∈ (ofJson (.object fields)).parts := by
  rw [ofJson, parts, ofFields_eq_map, List.map_map]
  exact List.mem_map_of_mem h

/-- What holds a faulty part is faulty. -/
theorem Faulty.of_part {t u : Tree} (h : t.Faulty) (hpart : t ∈ u.parts) : u.Faulty := by
  rintro v rfl
  cases v <;> simp only [ofJson, parts, List.not_mem_nil] at hpart
  case list items =>
    rw [ofItems_eq_map] at hpart
    obtain ⟨w, -, rfl⟩ := List.mem_map.mp hpart
    exact h w rfl
  case object fields =>
    rw [ofFields_eq_map, List.map_map] at hpart
    obtain ⟨f, -, rfl⟩ := List.mem_map.mp hpart
    exact h f.2 rfl

end Tree

namespace Scan

theorem faulty_strayObject (done : List (Key × Tree)) (found : Except Fault Shape) :
    (strayObject done found).Faulty :=
  Tree.faulty_object nofun

theorem faulty_enclose {t : Tree} (h : t.Faulty) (stack : List Frame) :
    (enclose t stack).Faulty := by
  induction stack generalizing t with
  | nil => exact h
  | cons frame rest ih =>
    cases frame with
    | list done => exact ih (h.of_part (by simp [Tree.parts]))
    | object done key => exact ih (h.of_part (by simp [Tree.parts]))
    | stray done => exact ih (faulty_strayObject done _)

/-! ## Stacks -/

/-- The containers that are open. -/
def stack : Scan → List Frame
  | .value st | .firstItem st | .nextItem _ st | .itemEnd _ st | .firstKey st | .nextKey _ st
  | .keyText _ _ st | .colon _ _ st | .fieldEnd _ st | .word _ _ _ st | .numeral _ st
  | .text _ st => st
  | .complete _ _ | .halted _ => []

/-- The same place inside other containers. -/
def withStack (st : List Frame) : Scan → Scan
  | .value _ => .value st
  | .firstItem _ => .firstItem st
  | .nextItem done _ => .nextItem done st
  | .itemEnd done _ => .itemEnd done st
  | .firstKey _ => .firstKey st
  | .nextKey done _ => .nextKey done st
  | .keyText scan done _ => .keyText scan done st
  | .colon key done _ => .colon key done st
  | .fieldEnd done _ => .fieldEnd done st
  | .word first rest meaning _ => .word first rest meaning st
  | .numeral scan _ => .numeral scan st
  | .text scan _ => .text scan st
  | .complete tree trailing => .complete tree trailing
  | .halted tree => .halted tree

/-- The text may go on here. -/
def isOpen : Scan → Bool
  | .complete _ _ | .halted _ => false
  | _ => true

/-- The trees that a scan holds so far. -/
def held : Scan → List Tree
  | .value st | .firstItem st | .firstKey st | .numeral _ st | .text _ st => st.flatMap Frame.held
  | .nextItem done st | .itemEnd done st => done ++ st.flatMap Frame.held
  | .nextKey done st | .keyText _ done st | .colon _ done st | .fieldEnd done st =>
    done.map Prod.snd ++ st.flatMap Frame.held
  | .word _ _ meaning st => meaning :: st.flatMap Frame.held
  | .complete tree _ => [tree]
  | .halted _ => []

theorem withStack_stack (s : Scan) : s.withStack s.stack = s := by cases s <;> rfl

theorem held_stack {s : Scan} {t : Tree} (h : t ∈ s.stack.flatMap Frame.held) : t ∈ s.held := by
  cases s <;> simp_all [stack, held]

theorem held_below {s : Scan} {pre base : List Frame} (hs : s.stack = pre ++ base) {t : Tree}
    (h : t ∈ base.flatMap Frame.held) : t ∈ s.held := by
  refine held_stack ?_
  rw [hs, List.flatMap_append]
  exact List.mem_append_right _ h

/-! ## What a character does -/

/-- The tree is held already or has no parts. -/
def Known (s : Scan) (t : Tree) : Prop := t ∈ s.held ∨ t.isPlain = true

/-- What one character does to a scan, whatever containers stand around those that it looks at:
these are `pre` before the character and `post` after it. -/
inductive Effect (c : Char) (s : Scan) : Scan → Prop
  /-- Nobody gets past this place. -/
  | halt {t : Tree} (hfaulty : t.Faulty) : Effect c s (.halted t)
  | halted {t : Tree} (hs : s = .halted t) : Effect c s (.halted t)
  /-- The whole value has been complete before this character. -/
  | finished {t : Tree} {trailing : Bool} (hknown : s.Known t)
      (htrailing : trailing = true ∨ s = .complete t trailing ∧ isSpace c = true) :
      Effect c s (.complete t trailing)
  /-- The scan goes on, perhaps with the first character of a value in a container. -/
  | move (s' : Scan) (pre post base : List Frame) (hopen : s.isOpen = true)
      (hopen' : s'.isOpen = true) (hs : s.stack = pre ++ base)
      (hs' : s'.stack = post ++ base)
      (hlocal : ∀ b, step (s.withStack (pre ++ b)) c = s'.withStack (post ++ b))
      (hpost : post = [] ∨ ∃ frame q, post = [frame] ∧ q <:+ [c] ∧
        run (.value []) q = s'.withStack [])
      (hknown : ∀ t ∈ s'.held, s.Known t) : Effect c s s'
  /-- A value is complete. -/
  | close (pre base : List Frame) {t : Tree} (hopen : s.isOpen = true) (hs : s.stack = pre ++ base)
      (hlocal : ∀ b, step (s.withStack (pre ++ b)) c = deliver t b)
      (hknown : s.Known t ∨ ∀ part ∈ t.parts, s.Known part) : Effect c s (deliver t base)

section

variable {c : Char} {s : Scan}

theorem effect_halt {t : Tree} (h : t.Faulty) (st : List Frame) : Effect c s (halt t st) :=
  .halt (faulty_enclose h st)

/-- White space and the like leave a scan where it is. -/
theorem effect_stay (hopen : s.isOpen = true)
    (h : ∀ b, step (s.withStack b) c = s.withStack b) : Effect c s s :=
  .move s [] [] s.stack hopen hopen rfl rfl h (.inl rfl) fun _ ht => .inl ht

/-- The first character of a value begins it in the same way wherever it stands, or else nobody
gets past it. -/
theorem openValue_cases (c : Char) :
    (∃ s₀ : Scan, openValue c = (fun st => s₀.withStack st) ∧
      ∀ st, (s₀.withStack st).isOpen = true ∧ (s₀.withStack st).stack = st ∧
        ∀ t ∈ (s₀.withStack st).held, t.isPlain = true ∨ t ∈ st.flatMap Frame.held) ∨
      openValue c = halt (.broken none .valueExpected .valueExpected) := by
  have hword (meaning : Tree) (hplain : meaning.isPlain = true) (st : List Frame) :
      ∀ t ∈ meaning :: st.flatMap Frame.held, t.isPlain = true ∨ t ∈ st.flatMap Frame.held := by
    rintro t ht
    obtain rfl | ht := List.mem_cons.mp ht
    · exact .inl hplain
    · exact .inr ht
  unfold openValue
  split
  case h_1 => exact .inl ⟨.word 'n' ['u', 'l', 'l'] .null [], rfl, fun st =>
    ⟨rfl, rfl, hword _ rfl st⟩⟩
  case h_2 => exact .inl ⟨.word 't' ['r', 'u', 'e'] (.bool true) [], rfl, fun st =>
    ⟨rfl, rfl, hword _ rfl st⟩⟩
  case h_3 => exact .inl ⟨.word 'f' ['a', 'l', 's', 'e'] (.bool false) [], rfl, fun st =>
    ⟨rfl, rfl, hword _ rfl st⟩⟩
  case h_4 => exact .inl ⟨.text .start [], rfl, fun st => ⟨rfl, rfl, fun t => .inr⟩⟩
  case h_5 => exact .inl ⟨.firstItem [], rfl, fun st => ⟨rfl, rfl, fun t => .inr⟩⟩
  case h_6 => exact .inl ⟨.firstKey [], rfl, fun st => ⟨rfl, rfl, fun t => .inr⟩⟩
  case h_7 => exact .inl ⟨.numeral .minus [], rfl, fun st => ⟨rfl, rfl, fun t => .inr⟩⟩
  case h_8 =>
    split
    case h_1 d _ =>
      exact .inl ⟨.numeral (.firstDigit false d) [], rfl, fun st => ⟨rfl, rfl, fun t => .inr⟩⟩
    case h_2 => exact .inr rfl

/-- A value starts, where one was awaited or as the first thing in a container. -/
theorem effect_openValue (post : List Frame) (hopen : s.isOpen = true)
    (hlocal : ∀ b, step (s.withStack b) c = openValue c (post ++ b))
    (hpost : post = [] ∨ isSpace c = false ∧ ∃ frame, post = [frame])
    (hknown : ∀ t ∈ post.flatMap Frame.held, s.Known t) :
    Effect c s (openValue c (post ++ s.stack)) := by
  obtain ⟨s₀, hbegins, hs₀⟩ | hbroken := openValue_cases c
  · rw [hbegins] at hlocal ⊢
    obtain ⟨hopen', hstack, hheld⟩ := hs₀ (post ++ s.stack)
    refine .move _ [] post s.stack hopen hopen' rfl hstack (fun b => ?_) ?_ fun t ht => ?_
    · rw [List.nil_append, hlocal]
      cases s₀ <;> rfl
    · refine hpost.imp_right fun ⟨hspace, frame, hframe⟩ =>
        ⟨frame, [c], hframe, List.suffix_refl _, ?_⟩
      have hfirst : step (.value []) c = s₀.withStack [] := by
        rw [step, hspace, hbegins]
        rfl
      rw [run, List.foldl_cons, List.foldl_nil, hfirst]
      cases s₀ <;> rfl
    · obtain hplain | ht := hheld t ht
      · exact .inr hplain
      · rw [List.flatMap_append, List.mem_append] at ht
        exact ht.elim (hknown t) fun ht => .inl (held_stack ht)
  · rw [hbroken]
    exact effect_halt (Tree.faulty_broken _ _ _) _

/-- Something stands where a key should stand. -/
theorem effect_openStray {done : List (Key × Tree)} (hspace : isSpace c = false)
    (hopen : s.isOpen = true)
    (hlocal : ∀ b, step (s.withStack b) c = openStray c done b)
    (hknown : ∀ t ∈ done.map Prod.snd, s.Known t) :
    Effect c s (openStray c done s.stack) := by
  unfold openStray
  split
  case h_1 => exact effect_halt (faulty_strayObject _ _) _
  case h_2 => exact effect_halt (faulty_strayObject _ _) _
  case h_3 hlist hobject =>
    refine effect_openValue [.stray done] hopen (fun b => ?_) (.inr ⟨hspace, _, rfl⟩)
      (by simpa [Frame.held] using hknown)
    rw [hlocal, openStray]
    · rfl
    · exact hlist
    · exact hobject

/-- A character after an item of a list. -/
theorem effect_itemEnd (pre base : List Frame) {done : List Tree} (hspace : isSpace c = false)
    (hopen : s.isOpen = true) (hs : s.stack = pre ++ base)
    (hlocal : ∀ b, step (s.withStack (pre ++ b)) c = between (.itemEnd done b) c)
    (hknown : ∀ t ∈ done, s.Known t) : Effect c s (between (.itemEnd done base) c) := by
  simp only [between, hspace, Bool.false_eq_true, if_false] at hlocal ⊢
  split
  case isTrue hcomma =>
    simp only [if_pos hcomma] at hlocal
    refine .move _ pre [] base hopen rfl hs rfl hlocal (.inl rfl) fun t ht => ?_
    exact (List.mem_append.mp ht).elim (hknown t) fun ht => .inl (held_below hs ht)
  case isFalse hcomma =>
    simp only [if_neg hcomma] at hlocal
    split
    case isTrue hclose =>
      simp only [if_pos hclose] at hlocal
      refine .close pre base hopen hs hlocal (.inr fun t ht => hknown t ?_)
      simpa [Tree.parts] using ht
    case isFalse => exact effect_halt (Tree.faulty_list (by simp)) _

/-- A character after a field of an object. -/
theorem effect_fieldEnd (pre base : List Frame) {done : List (Key × Tree)}
    (hspace : isSpace c = false) (hopen : s.isOpen = true) (hs : s.stack = pre ++ base)
    (hlocal : ∀ b, step (s.withStack (pre ++ b)) c = between (.fieldEnd done b) c)
    (hknown : ∀ t ∈ done.map Prod.snd, s.Known t) :
    Effect c s (between (.fieldEnd done base) c) := by
  simp only [between, hspace, Bool.false_eq_true, if_false] at hlocal ⊢
  split
  case isTrue hcomma =>
    simp only [if_pos hcomma] at hlocal
    refine .move _ pre [] base hopen rfl hs rfl hlocal (.inl rfl) fun t ht => ?_
    exact (List.mem_append.mp ht).elim (hknown t) fun ht => .inl (held_below hs ht)
  case isFalse hcomma =>
    simp only [if_neg hcomma] at hlocal
    split
    case isTrue hclose =>
      simp only [if_pos hclose] at hlocal
      refine .close pre base hopen hs hlocal (.inr fun t ht => hknown t ?_)
      simpa [Tree.parts] using ht
    case isFalse => exact effect_halt (Tree.faulty_object (by simp)) _

/-- A character that ends a value and belongs to what comes after it. -/
theorem effect_between {t : Tree} (hopen : s.isOpen = true)
    (hlocal : ∀ b, step (s.withStack b) c = between (deliver t b) c) (hknown : s.Known t) :
    Effect c s (between (deliver t s.stack) c) := by
  cases hspace : isSpace c with
  | true =>
    simp only [between, hspace, if_true] at hlocal ⊢
    exact .close [] s.stack hopen rfl hlocal (.inl hknown)
  | false =>
    cases hs : s.stack with
    | nil =>
      simp only [deliver, between, hspace, Bool.false_eq_true, if_false]
      exact .finished hknown (.inl rfl)
    | cons frame base =>
      have hheld : ∀ u ∈ frame.held, s.Known u := fun u hu => .inl (held_stack (by
        rw [hs, List.flatMap_cons]
        exact List.mem_append_left _ hu))
      cases frame with
      | list done =>
        exact effect_itemEnd [.list done] base hspace hopen hs (fun b => hlocal _)
          (List.forall_mem_cons.mpr ⟨hknown, hheld⟩)
      | object done key =>
        exact effect_fieldEnd [.object done key] base hspace hopen hs (fun b => hlocal _)
          (List.forall_mem_cons.mpr ⟨hknown, hheld⟩)
      | stray done =>
        simp only [deliver, between, hspace, Bool.false_eq_true, if_false, halt]
        exact effect_halt (faulty_strayObject _ _) _

end

/-! ### Each place in turn -/

theorem effect_value (st : List Frame) (c : Char) : Effect c (.value st) (step (.value st) c) := by
  have hlocal (b) : step (.value b) c = if isSpace c then .value b else openValue c b := rfl
  by_cases hspace : isSpace c = true
  · simp only [hspace, if_true] at hlocal
    rw [hlocal]
    exact effect_stay rfl hlocal
  · simp only [hspace] at hlocal
    rw [hlocal]
    exact effect_openValue [] rfl hlocal (.inl rfl) nofun

theorem effect_firstItem (st : List Frame) (c : Char) :
    Effect c (.firstItem st) (step (.firstItem st) c) := by
  have hlocal (b) : step (.firstItem b) c =
    if isSpace c then .firstItem b
    else if c = ']' then deliver (.list [] .closed) b
    else openValue c (.list [] :: b) := rfl
  by_cases hspace : isSpace c = true
  · simp only [hspace, if_true] at hlocal
    rw [hlocal]
    exact effect_stay rfl hlocal
  by_cases hclose : c = ']'
  · simp only [hspace, if_pos hclose] at hlocal
    rw [hlocal]
    exact .close [] st rfl rfl hlocal (.inr nofun)
  · simp only [hspace, if_neg hclose] at hlocal
    rw [hlocal]
    exact effect_openValue [.list []] rfl hlocal (.inr ⟨by simpa using hspace, _, rfl⟩)
      (by simp [Frame.held])

theorem effect_nextItem (done : List Tree) (st : List Frame) (c : Char) :
    Effect c (.nextItem done st) (step (.nextItem done st) c) := by
  have hlocal (b) : step (.nextItem done b) c =
    if isSpace c then .nextItem done b
    else if c = ']' then halt (.list done.reverse .danglingComma) b
    else openValue c (.list done :: b) := rfl
  by_cases hspace : isSpace c = true
  · simp only [hspace, if_true] at hlocal
    rw [hlocal]
    exact effect_stay rfl hlocal
  by_cases hclose : c = ']'
  · simp only [hspace, if_pos hclose] at hlocal
    rw [hlocal]
    exact effect_halt (Tree.faulty_list (by simp)) _
  · simp only [hspace, if_neg hclose] at hlocal
    rw [hlocal]
    refine effect_openValue [.list done] rfl hlocal (.inr ⟨by simpa using hspace, _, rfl⟩) ?_
    intro t ht
    exact .inl (List.mem_append_left _ (by simpa [Frame.held] using ht))

theorem effect_firstKey (st : List Frame) (c : Char) :
    Effect c (.firstKey st) (step (.firstKey st) c) := by
  have hlocal (b) : step (.firstKey b) c =
    if isSpace c then .firstKey b
    else if c = '"' then .keyText .start [] b
    else if c = '\x7d' then deliver (.object [] .closed) b
    else openStray c [] b := rfl
  by_cases hspace : isSpace c = true
  · simp only [hspace, if_true] at hlocal
    rw [hlocal]
    exact effect_stay rfl hlocal
  by_cases hkey : c = '"'
  · simp only [hspace, if_pos hkey] at hlocal
    rw [hlocal]
    exact .move _ [] [] st rfl rfl rfl rfl hlocal (.inl rfl) fun t => .inl
  by_cases hclose : c = '\x7d'
  · simp only [hspace, if_neg hkey, if_pos hclose] at hlocal
    rw [hlocal]
    exact .close [] st rfl rfl hlocal (.inr nofun)
  · simp only [hspace, if_neg hkey, if_neg hclose] at hlocal
    rw [hlocal]
    exact effect_openStray (by simpa using hspace) rfl hlocal nofun

theorem effect_nextKey (done : List (Key × Tree)) (st : List Frame) (c : Char) :
    Effect c (.nextKey done st) (step (.nextKey done st) c) := by
  have hlocal (b) : step (.nextKey done b) c =
    if isSpace c then .nextKey done b
    else if c = '"' then .keyText .start done b
    else if c = '\x7d' then halt (.object done.reverse .danglingComma) b
    else openStray c done b := rfl
  by_cases hspace : isSpace c = true
  · simp only [hspace, if_true] at hlocal
    rw [hlocal]
    exact effect_stay rfl hlocal
  by_cases hkey : c = '"'
  · simp only [hspace, if_pos hkey] at hlocal
    rw [hlocal]
    exact .move _ [] [] st rfl rfl rfl rfl hlocal (.inl rfl) fun t => .inl
  by_cases hclose : c = '\x7d'
  · simp only [hspace, if_neg hkey, if_pos hclose] at hlocal
    rw [hlocal]
    exact effect_halt (Tree.faulty_object (by simp)) _
  · simp only [hspace, if_neg hkey, if_neg hclose] at hlocal
    rw [hlocal]
    exact effect_openStray (by simpa using hspace) rfl hlocal fun t ht =>
      .inl (List.mem_append_left _ ht)

theorem effect_keyText (scan : TextScan) (done : List (Key × Tree)) (st : List Frame) (c : Char) :
    Effect c (.keyText scan done st) (step (.keyText scan done st) c) := by
  cases hstep : scan.step c with
  | more scan' =>
    have hlocal (b) : step (.keyText scan done b) c = .keyText scan' done b := by
      simp only [step, hstep]
    rw [hlocal]
    exact .move _ [] [] st rfl rfl rfl rfl hlocal (.inl rfl) fun t => .inl
  | closed key =>
    have hlocal (b) : step (.keyText scan done b) c = .colon key done b := by
      simp only [step, hstep]
    rw [hlocal]
    exact .move _ [] [] st rfl rfl rfl rfl hlocal (.inl rfl) fun t => .inl
  | broken read skipped =>
    simp only [step, hstep]
    exact effect_halt (Tree.faulty_object (by simp)) _

theorem effect_colon (key : Key) (done : List (Key × Tree)) (st : List Frame) (c : Char) :
    Effect c (.colon key done st) (step (.colon key done st) c) := by
  have hlocal (b) : step (.colon key done b) c =
    if isSpace c then .colon key done b
    else if c = ':' then .value (.object done key :: b)
    else halt (.broken none .colonExpected .colonExpected) (.object done key :: b) := rfl
  by_cases hspace : isSpace c = true
  · simp only [hspace, if_true] at hlocal
    rw [hlocal]
    exact effect_stay rfl hlocal
  by_cases hcolon : c = ':'
  · simp only [hspace, if_pos hcolon] at hlocal
    rw [hlocal]
    exact .move _ [] [.object done key] st rfl rfl rfl rfl hlocal
      (.inr ⟨_, [], rfl, List.nil_suffix, rfl⟩) fun t => .inl
  · simp only [hspace, if_neg hcolon] at hlocal
    rw [hlocal]
    exact effect_halt (Tree.faulty_broken _ _ _) _

theorem effect_word (first : Char) (rest : List Char) (meaning : Tree) (st : List Frame)
    (c : Char) : Effect c (.word first rest meaning st) (step (.word first rest meaning st) c) := by
  have hmeaning : Known (.word first rest meaning st) meaning := .inl List.mem_cons_self
  cases rest with
  | nil => exact effect_between (s := .word first [] meaning st) rfl (fun _ => rfl) hmeaning
  | cons d rest =>
    have hlocal (b) : step (.word first (d :: rest) meaning b) c =
      if c ≠ d then halt (.broken (some first) .wordExpected .wordExpected) b
      else if rest.isEmpty then deliver meaning b
      else .word first rest meaning b := rfl
    by_cases hletter : c ≠ d
    · simp only [if_pos hletter] at hlocal
      rw [hlocal]
      exact effect_halt (Tree.faulty_broken _ _ _) _
    by_cases hlast : rest.isEmpty = true
    · simp only [if_neg hletter, if_pos hlast] at hlocal
      rw [hlocal]
      exact .close [] st rfl rfl hlocal (.inl hmeaning)
    · simp only [if_neg hletter, if_neg hlast] at hlocal
      rw [hlocal]
      exact .move _ [] [] st rfl rfl rfl rfl hlocal (.inl rfl) fun t => .inl

theorem effect_numeral (scan : NumeralScan) (st : List Frame) (c : Char) :
    Effect c (.numeral scan st) (step (.numeral scan st) c) := by
  cases hstep : scan.step c with
  | more scan' =>
    have hlocal (b) : step (.numeral scan b) c = .numeral scan' b := by simp only [step, hstep]
    rw [hlocal]
    exact .move _ [] [] st rfl rfl rfl rfl hlocal (.inl rfl) fun t => .inl
  | complete =>
    have hlocal (b) : step (.numeral scan b) c = between (deliver (.number scan.value) b) c := by
      simp only [step, hstep]
    rw [hlocal]
    exact effect_between (s := .numeral scan st) rfl hlocal (.inr rfl)
  | malformed =>
    simp only [step, hstep]
    exact effect_halt (Tree.faulty_broken _ _ _) _

theorem effect_text (scan : TextScan) (st : List Frame) (c : Char) :
    Effect c (.text scan st) (step (.text scan st) c) := by
  cases hstep : scan.step c with
  | more scan' =>
    have hlocal (b) : step (.text scan b) c = .text scan' b := by simp only [step, hstep]
    rw [hlocal]
    exact .move _ [] [] st rfl rfl rfl rfl hlocal (.inl rfl) fun t => .inl
  | closed content =>
    have hlocal (b) : step (.text scan b) c = deliver (.text content) b := by
      simp only [step, hstep]
    rw [hlocal]
    exact .close [] st rfl rfl hlocal (.inl (.inr rfl))
  | broken read skipped =>
    simp only [step, hstep]
    exact effect_halt (Tree.faulty_broken _ _ _) _

/-- What a scan does is the same whatever stands around the containers it looks at. -/
theorem step_effect (s : Scan) (c : Char) : Effect c s (step s c) := by
  cases s with
  | value st => exact effect_value st c
  | firstItem st => exact effect_firstItem st c
  | nextItem done st => exact effect_nextItem done st c
  | firstKey st => exact effect_firstKey st c
  | nextKey done st => exact effect_nextKey done st c
  | keyText scan done st => exact effect_keyText scan done st c
  | colon key done st => exact effect_colon key done st c
  | word first rest meaning st => exact effect_word first rest meaning st c
  | numeral scan st => exact effect_numeral scan st c
  | text scan st => exact effect_text scan st c
  | itemEnd done st =>
    cases hspace : isSpace c with
    | true =>
      have hlocal (b) : step (.itemEnd done b) c = .itemEnd done b := by
        simp only [step, between, hspace, if_true]
      rw [hlocal]
      exact effect_stay rfl hlocal
    | false =>
      exact effect_itemEnd (s := .itemEnd done st) [] st hspace rfl rfl (fun _ => rfl) fun t ht =>
        .inl (List.mem_append_left _ ht)
  | fieldEnd done st =>
    cases hspace : isSpace c with
    | true =>
      have hlocal (b) : step (.fieldEnd done b) c = .fieldEnd done b := by
        simp only [step, between, hspace, if_true]
      rw [hlocal]
      exact effect_stay rfl hlocal
    | false =>
      exact effect_fieldEnd (s := .fieldEnd done st) [] st hspace rfl rfl (fun _ => rfl) fun t ht =>
        .inl (List.mem_append_left _ ht)
  | complete tree trailing =>
    have hknown : Known (.complete tree trailing) tree := .inl List.mem_cons_self
    simp only [step, between]
    split
    case isTrue hspace => exact .finished hknown (.inr ⟨rfl, hspace⟩)
    case isFalse => exact .finished hknown (.inl rfl)
  | halted tree => exact .halted rfl

end Scan
end ProxyPlan.Json
