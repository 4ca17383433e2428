/-
ProxyPlan.Proofs.ScannedParts — every object of a scanned text is spelled by a piece of the text,
and a piece that spells a value does so wherever a value may stand.

Going inwards, two things hold after every prefix of a text. Wherever the scan stands in its
containers, an end of the prefix leads to the same place in the inner ones of them (`Rooted`), and
all objects that have been closed are spelled somewhere in the prefix (`Held`): the end of the
prefix that leads to the place where an object is closed is its spelling. Going outwards, a scan
inside containers is the scan alone with these containers below it (`run_above`).
-/
import Mathlib.Data.List.Induction
import ProxyPlan.Proofs.ScanEffect

namespace ProxyPlan.Json

namespace Scan

/-! ## A scan inside containers -/

/-- The same scan inside containers. -/
def above (base : List Frame) : Scan → Scan
  | .complete t _ => deliver t base
  | .halted t => .halted (enclose t base)
  | s => s.withStack (s.stack ++ base)

/-- The text so far may be the spelling of a value or the beginning of one. -/
def goesWell : Scan → Bool
  | .complete _ trailing => !trailing
  | .halted _ => false
  | _ => true

theorem above_of_isOpen {s : Scan} (h : s.isOpen = true) (base : List Frame) :
    s.above base = s.withStack (s.stack ++ base) := by
  cases s <;> first | rfl | cases h

theorem above_deliver {t : Tree} {inner : List Frame} (h : (deliver t inner).goesWell = true)
    (base : List Frame) : (deliver t inner).above base = deliver t (inner ++ base) := by
  match inner with
  | [] | .list _ :: _ | .object _ _ :: _ => rfl
  | .stray _ :: _ => cases h

theorem step_deliver_space {c : Char} (hspace : isSpace c = true) (t : Tree)
    (base : List Frame) : step (deliver t base) c = deliver t base := by
  rw [step_deliver]
  simp only [between, hspace, if_true]

theorem Effect.above {c : Char} {s s' : Scan} (he : Effect c s s') (hwell : s'.goesWell = true)
    (base : List Frame) : step (s.above base) c = s'.above base := by
  cases he with
  | halt => cases hwell
  | halted => cases hwell
  | finished hknown htrailing =>
    obtain rfl | ⟨rfl, hspace⟩ := htrailing
    · cases hwell
    · exact step_deliver_space hspace _ base
  | move _ pre post inner hopen hopen' hs hs' hlocal hpost hknown =>
    rw [above_of_isOpen hopen, above_of_isOpen hopen', hs, hs', List.append_assoc,
      List.append_assoc]
    exact hlocal (inner ++ base)
  | close pre inner hopen hs hlocal hknown =>
    rw [above_of_isOpen hopen, hs, List.append_assoc, above_deliver hwell]
    exact hlocal (inner ++ base)

theorem goesWell_of_step {s : Scan} {c : Char} (h : (step s c).goesWell = true) :
    s.goesWell = true := by
  cases s with
  | halted t => exact h
  | complete t trailing =>
    cases trailing with
    | false => rfl
    | true =>
      simp only [step, between] at h
      split at h <;> cases h
  | _ => rfl

theorem run_snoc (s : Scan) (cs : List Char) (c : Char) :
    run s (cs ++ [c]) = step (run s cs) c := by
  rw [run_append, run_cons]
  rfl

/-- A text is scanned inside containers as it is alone. -/
theorem run_above {s : Scan} {cs : List Char} (h : (run s cs).goesWell = true)
    (base : List Frame) : run (s.above base) cs = (run s cs).above base := by
  induction cs using List.reverseRecOn with
  | nil => rfl
  | append_singleton cs c ih =>
    rw [run_snoc] at h
    rw [run_snoc, run_snoc, ih (goesWell_of_step h)]
    exact (step_effect _ c).above h base

/-- The spelling of a value is scanned as that value wherever one may stand. -/
theorem run_value {cs : List Char} {t : Tree} (h : run (.value []) cs = .complete t false)
    (base : List Frame) : run (.value base) cs = deliver t base := by
  have hwell : (run (.value []) cs).goesWell = true := by rw [h]; rfl
  have habove := run_above hwell base
  rwa [h] at habove

theorem run_halted (t : Tree) (cs : List Char) : run (.halted t) cs = .halted t := by
  induction cs with
  | nil => rfl
  | cons c cs ih => exact ih

/-- Where the first item or the end of a list may stand, the spelling of a value is scanned as an
item. -/
theorem run_firstItem {cs : List Char} {t : Tree} (h : run (.value []) cs = .complete t false)
    (base : List Frame) : run (.firstItem base) cs = deliver t (.list [] :: base) := by
  induction cs with
  | nil => exact nomatch h
  | cons c cs ih =>
    by_cases hspace : isSpace c = true
    · rw [run_cons] at h ⊢
      simp only [step, hspace, if_true] at h ⊢
      exact ih h
    by_cases hclose : c = ']'
    · subst hclose
      rw [run_cons, show step (.value []) ']' = .halted (.broken none .valueExpected .valueExpected)
        from rfl, run_halted] at h
      cases h
    · have hstep : step (.firstItem base) c = step (.value (.list [] :: base)) c := by
        simp only [step, hspace, if_neg hclose]
        rfl
      rw [run_cons, hstep, ← run_cons]
      exact run_value h _

/-! ## What holds after every prefix -/

/-- Wherever the scan stands in its containers, an end of the text leads to the same place in the
inner ones of them. -/
def Rooted (cs : List Char) (s : Scan) : Prop :=
  ∀ inner outer, s.stack = inner ++ outer → ∃ q, q <:+ cs ∧ run (.value []) q = s.withStack inner

/-- Every object in the tree is spelled somewhere in the text. -/
def Spelled (cs : List Char) (t : Tree) : Prop :=
  ∀ fields ending, Tree.Within (.object fields ending) t →
    ∃ q, q <:+: cs ∧ run (.value []) q = .complete (.object fields ending) false

theorem Spelled.mono {cs cs' : List Char} {t : Tree} (h : Spelled cs t) (hcs : cs <:+: cs') :
    Spelled cs' t := by
  intro fields ending hwithin
  obtain ⟨q, hq, hrun⟩ := h fields ending hwithin
  exact ⟨q, hq.trans hcs, hrun⟩

theorem spelled_of_plain {t : Tree} (h : t.isPlain = true) (cs : List Char) : Spelled cs t := by
  intro fields ending hwithin
  cases hwithin with
  | here => simp [Tree.isPlain] at h
  | part hpart => cases t <;> simp_all [Tree.parts, Tree.isPlain]

theorem spelled_of_parts {cs q : List Char} {t : Tree} (hq : q <:+: cs)
    (hrun : run (.value []) q = .complete t false) (h : ∀ part ∈ t.parts, Spelled cs part) :
    Spelled cs t := by
  intro fields ending hwithin
  cases hwithin with
  | here => exact ⟨q, hq, hrun⟩
  | part hpart hwithin => exact h _ hpart fields ending hwithin

/-- All objects that the scan holds are spelled in the text. -/
def Held (cs : List Char) (s : Scan) : Prop := ∀ t ∈ s.held, Spelled cs t

theorem Held.known {cs : List Char} {s : Scan} (h : Held cs s) {t : Tree} (hknown : s.Known t) :
    Spelled cs t :=
  hknown.elim (h t) fun hplain => spelled_of_plain hplain cs

section

variable {cs : List Char} {c : Char} {s s' : Scan}

theorem rooted_of_stack (hrun : run (.value []) cs = s) (h : s.stack = []) : Rooted cs s := by
  intro inner outer hs
  rw [h] at hs
  obtain ⟨rfl, rfl⟩ := List.append_eq_nil_iff.mp hs.symm
  refine ⟨cs, List.suffix_refl cs, ?_⟩
  rw [hrun, ← h, withStack_stack]

/-- From the place in some of its containers the character leads on to the same place. -/
theorem Rooted.step_inner (h : Rooted cs s) (inner : List Frame) {pre outer : List Frame}
    (hs : s.stack = pre ++ (inner ++ outer)) :
    ∃ q, q <:+ cs ++ [c] ∧ run (.value []) q = step (s.withStack (pre ++ inner)) c := by
  obtain ⟨q, hq, hrun⟩ := h (pre ++ inner) outer (by rw [hs, List.append_assoc])
  exact ⟨q ++ [c], List.suffix_append_self_iff.mpr hq, by rw [run_snoc, hrun]⟩

theorem Effect.rooted (he : Effect c s s') (hrun : run (.value []) (cs ++ [c]) = s')
    (h : Rooted cs s) : Rooted (cs ++ [c]) s' := by
  cases he with
  | halt => exact rooted_of_stack hrun rfl
  | halted => exact rooted_of_stack hrun rfl
  | finished => exact rooted_of_stack hrun rfl
  | move _ pre post base hopen hopen' hs hs' hlocal hpost _ =>
    intro inner outer hsplit
    rw [hs'] at hsplit
    obtain rfl | ⟨frame, q, rfl, hq, hfirst⟩ := hpost
    · obtain rfl : base = inner ++ outer := hsplit
      obtain ⟨q, hq, hrun⟩ := h.step_inner _ hs
      exact ⟨q, hq, hrun.trans (hlocal inner)⟩
    · cases inner with
      | nil => exact ⟨q, hq.trans (List.suffix_append cs [c]), hfirst⟩
      | cons frame' inner =>
        obtain ⟨rfl, rfl⟩ := List.cons.inj hsplit
        obtain ⟨q, hq, hrun⟩ := h.step_inner _ hs
        exact ⟨q, hq, hrun.trans (hlocal inner)⟩
  | close pre base hopen hs hlocal _ =>
    match base with
    | [] => exact rooted_of_stack hrun rfl
    | .list done :: rest =>
      rintro inner outer (rfl : rest = inner ++ outer)
      obtain ⟨q, hq, hrun⟩ := h.step_inner (.list done :: inner) hs
      exact ⟨q, hq, hrun.trans (hlocal _)⟩
    | .object done key :: rest =>
      rintro inner outer (rfl : rest = inner ++ outer)
      obtain ⟨q, hq, hrun⟩ := h.step_inner (.object done key :: inner) hs
      exact ⟨q, hq, hrun.trans (hlocal _)⟩
    | .stray done :: rest => exact rooted_of_stack hrun rfl

theorem held_deliver {t u : Tree} {base : List Frame} (hu : u ∈ (deliver t base).held) :
    u = t ∨ u ∈ base.flatMap Frame.held := by
  match base with
  | [] => simpa [deliver, held] using hu
  | .list done :: rest => simpa [deliver, held, Frame.held, or_assoc] using hu
  | .object done key :: rest => simpa [deliver, held, Frame.held, or_assoc] using hu
  | .stray done :: rest => simp [deliver, halt, held] at hu

theorem Effect.held (he : Effect c s s') (hrooted : Rooted cs s) (h : Held cs s) :
    Held (cs ++ [c]) s' := by
  have hknown {t : Tree} (ht : s.Known t) : Spelled (cs ++ [c]) t :=
    (h.known ht).mono (List.prefix_append cs [c]).isInfix
  cases he with
  | halt => exact nofun
  | halted => exact nofun
  | finished ht htrailing =>
    intro u hu
    obtain rfl := List.mem_singleton.mp hu
    exact hknown ht
  | move _ pre post base hopen hopen' hs hs' hlocal hpost hall =>
    exact fun u hu => hknown (hall u hu)
  | @close pre base t hopen hs hlocal ht =>
    -- with nothing around it the character completes the value, which is spelled here
    have hspelled : Spelled (cs ++ [c]) t := by
      obtain ht | hparts := ht
      · exact hknown ht
      · obtain ⟨q, hq, hrun⟩ := hrooted.step_inner [] hs
        exact spelled_of_parts hq.isInfix (hrun.trans (hlocal [])) fun part hpart =>
          hknown (hparts part hpart)
    intro u hu
    obtain rfl | hu := held_deliver hu
    · exact hspelled
    · exact hknown (.inl (held_below hs hu))

end

theorem run_rooted_held (cs : List Char) :
    Rooted cs (run (.value []) cs) ∧ Held cs (run (.value []) cs) := by
  induction cs using List.reverseRecOn with
  | nil => exact ⟨rooted_of_stack rfl rfl, nofun⟩
  | append_singleton cs c ih =>
    obtain ⟨hrooted, hheld⟩ := ih
    have heffect := step_effect (run (.value []) cs) c
    rw [← run_snoc] at heffect
    exact ⟨heffect.rooted rfl hrooted, heffect.held hrooted hheld⟩

/-- Nobody gets past a place where a scan halts. -/
theorem Effect.faulty {c : Char} {s s' : Scan} (he : Effect c s s')
    (h : ∀ t, s = .halted t → t.Faulty) : ∀ t, s' = .halted t → t.Faulty := by
  rintro t rfl
  generalize hhalted : Scan.halted t = s' at he
  cases he with
  | halt hfaulty =>
    obtain rfl := Scan.halted.inj hhalted
    exact hfaulty
  | halted hs => exact h t (hs.trans hhalted.symm)
  | finished => exact nomatch hhalted
  | move _ pre post base hopen hopen' hs hs' hlocal hpost hknown =>
    rw [← hhalted] at hopen'
    cases hopen'
  | close pre base hopen hs hlocal ht =>
    match base with
    | [] => exact nomatch hhalted
    | .list done :: rest => exact nomatch hhalted
    | .object done key :: rest => exact nomatch hhalted
    | .stray done :: rest =>
      obtain rfl := Scan.halted.inj hhalted
      exact faulty_enclose (faulty_strayObject _ _) _

theorem faulty_of_halted {cs : List Char} :
    ∀ t, run (.value []) cs = .halted t → t.Faulty := by
  induction cs using List.reverseRecOn with
  | nil => exact nofun
  | append_singleton cs c ih =>
    rw [run_snoc]
    exact (step_effect _ c).faulty ih

/-- A text whose tree is that of an object at hand whole has been scanned to its end. -/
theorem run_of_finish {cs : List Char} {fields : List (String × Json)}
    (h : (run (.value []) cs).finish = .ofJson (.object fields)) :
    ∃ trailing, run (.value []) cs = .complete (.ofJson (.object fields)) trailing := by
  have hcut {t : Tree} (ht : t.Faulty) (st : List Frame) :
      enclose t st ≠ .ofJson (.object fields) := faulty_enclose ht st _
  have hlist {done : List Tree} : (Tree.list done .cut).Faulty := Tree.faulty_list nofun
  have hobject {done : List (Key × Tree)} : (Tree.object done .cut).Faulty :=
    Tree.faulty_object nofun
  cases hs : run (.value []) cs <;> rw [hs] at h
  case complete tree trailing => exact ⟨trailing, by rw [← h]; rfl⟩
  case halted tree => exact absurd h (faulty_of_halted _ hs _)
  case value st => exact absurd h (hcut (Tree.faulty_broken _ _ _) st)
  case firstItem st => exact absurd h (hcut hlist st)
  case nextItem done st => exact absurd h (hcut (Tree.faulty_broken _ _ _) (.list done :: st))
  case itemEnd done st => exact absurd h (hcut hlist st)
  case firstKey st => exact absurd h (hcut hobject st)
  case nextKey done st => exact absurd h (hcut (Tree.faulty_object (by nofun)) st)
  case keyText scan done st => exact absurd h (hcut (Tree.faulty_object (by nofun)) st)
  case colon key done st =>
    exact absurd h (hcut (Tree.faulty_broken _ _ _) (.object done key :: st))
  case fieldEnd done st => exact absurd h (hcut hobject st)
  case word first rest meaning st => exact absurd h (hcut (Tree.faulty_broken _ _ _) st)
  case text scan st => exact absurd h (hcut (Tree.faulty_broken _ _ _) st)
  case numeral scan st =>
    rw [finish] at h
    split at h
    case isFalse => exact absurd h (hcut (Tree.faulty_broken _ _ _) st)
    case isTrue =>
      match st with
      | [] => exact nomatch h
      | .list done :: rest => exact absurd h (hcut hlist rest)
      | .object done key :: rest => exact absurd h (hcut hobject rest)
      | .stray done :: rest => exact absurd h (hcut (faulty_strayObject _ _) rest)

end Scan

/-! ## Objects of a text -/

/-- A text whose tree is that of an object at hand whole spells every object in it somewhere. -/
theorem spelled_of_scan {text : String} {fields part : List (String × Json)}
    (h : (scan text).finish = .ofJson (.object fields))
    (hpart : Tree.Within (.ofJson (.object part)) (.ofJson (.object fields))) :
    ∃ spelling : String, spelling.toList <:+: text.toList ∧
      scan spelling = .complete (.ofJson (.object part)) false := by
  obtain ⟨trailing, hrun⟩ := Scan.run_of_finish h
  obtain ⟨-, hheld⟩ := Scan.run_rooted_held text.toList
  rw [hrun] at hheld
  obtain ⟨q, hq, hspelled⟩ := hheld _ List.mem_cons_self _ _ hpart
  refine ⟨String.ofList q, by rwa [String.toList_ofList], ?_⟩
  rw [scan, String.toList_ofList, hspelled]
  rfl

end ProxyPlan.Json
