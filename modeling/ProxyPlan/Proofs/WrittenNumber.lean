/-
ProxyPlan.Proofs.WrittenNumber — written numbers are read as the numbers they
were.

A numeral has no closing mark, so a number is read back only if what follows
cannot continue it. In a written value a number is followed by a comma, a
bracket or a line break, none of which can (`endsNumeral`). `Number.ReadsAs`
says that the scan, from wherever a value may begin, delivers a number at such
a place, and `Number.ReadsBack` that this is the number that was written; every
whole number of up to 64 bits is (`readsBack_nat`).
-/
import Mathlib.Tactic.IntervalCases
import ProxyPlan.Json.Scan
import ProxyPlan.Json.Write

namespace ProxyPlan

/-! ## Digits -/

namespace Text

theorem digitValue?_digitChar {d : Nat} (h : d < 10) : digitValue? (Nat.digitChar d) = some d := by
  interval_cases d <;> rfl

end Text

namespace Number

theorem ofDigits_append (ds : List Nat) (d : Nat) :
    ofDigits (ds ++ [d]) = 10 * ofDigits ds + d := by
  simp [ofDigits]

theorem le_foldl_digits (ds : List Nat) (n : Nat) :
    n ≤ ds.foldl (fun n d => 10 * n + d) n := by
  induction ds generalizing n with
  | nil => exact Nat.le_refl n
  | cons d rest ih => exact Nat.le_trans (by omega) (ih (10 * n + d))

/-- Digits that fit are all gathered. -/
theorem gather_eq {ds : List Nat} {n : Nat}
    (h : ds.foldl (fun n d => 10 * n + d) n ≤ significandLimit) :
    gather n ds = (ds.foldl (fun n d => 10 * n + d) n, 0) := by
  induction ds generalizing n with
  | nil => rfl
  | cons d rest ih =>
    have hfits : 10 * n + d ≤ significandLimit := Nat.le_trans (le_foldl_digits rest _) h
    rw [gather, if_pos hfits, ih h]
    rfl

/-- A numeral without sign, point and exponent is the number it spells. -/
theorem value?_whole {ds : List Nat} (h : ofDigits ds < 2 ^ 64) :
    (Numeral.mk false ds [] none).value? = some (.integer (ofDigits ds)) := by
  have hgather : gather 0 ds = (ofDigits ds, 0) := gather_eq (Nat.le_sub_one_of_lt h)
  simp [Numeral.value?, hgather]

end Number

namespace Json

open Text (digitValue? digitValue?_digitChar)

/-! ## Scanning digits -/

namespace Scan

theorem run_cons (s : Scan) (c : Char) (cs : List Char) : run s (c :: cs) = run (step s c) cs := rfl

theorem run_append (s : Scan) (cs ds : List Char) : run s (cs ++ ds) = run (run s cs) ds :=
  List.foldl_append

theorem openValue_digitChar {d : Nat} (h : d < 10) (stack : List Frame) :
    openValue (Nat.digitChar d) stack = .numeral (.firstDigit false d) stack := by
  interval_cases d <;> rfl

theorem isSpace_digitChar {d : Nat} (h : d < 10) : isSpace (Nat.digitChar d) = false := by
  interval_cases d <;> rfl

/-- The numeral without sign whose digits so far, last first, are given. -/
def wholeNumeral (ds : List Nat) (n : Nat) : NumeralScan :=
  ⟨if n = 0 then .leadingZero else .whole, false, ds, [], false, []⟩

/-- From where a digit may begin a numeral, or continue its sign, the digits of a
number are scanned one by one. -/
theorem run_decimal_from {start : Scan} {negative : Bool} {stack : List Frame}
    (hstart : ∀ d < 10, step start (Nat.digitChar d) = .numeral (.firstDigit negative d) stack)
    (n : Nat) : ∃ ds, Number.ofDigits ds.reverse = n ∧
      run start (Text.decimal n) = .numeral { wholeNumeral ds n with negative := negative } stack := by
  induction n using Nat.base_induction 10 (by decide) with
  | single d hd =>
    refine ⟨[d], by simp [Number.ofDigits], ?_⟩
    rw [Text.decimal, Nat.toDigits_of_lt_base hd]
    show step start (Nat.digitChar d) = _
    rw [hstart d hd]
    rfl
  | digit n d hd hn ih =>
    obtain ⟨ds, hds, hrun⟩ := ih
    refine ⟨d :: ds, by rw [List.reverse_cons, Number.ofDigits_append, hds], ?_⟩
    rw [Text.decimal, ← Nat.toDigits_append_toDigits (by decide) hn hd,
      Nat.toDigits_of_lt_base hd, run_append]
    show step (run start (Text.decimal n)) (Nat.digitChar d) = _
    rw [hrun]
    simp [step, NumeralScan.step, wholeNumeral, digitValue?_digitChar hd,
      Nat.pos_iff_ne_zero.mp hn]

theorem run_decimal (n : Nat) (stack : List Frame) :
    ∃ ds, Number.ofDigits ds.reverse = n ∧
      run (.value stack) (Text.decimal n) = .numeral (wholeNumeral ds n) stack := by
  refine run_decimal_from (fun d hd => ?_) n
  simp only [step, isSpace_digitChar hd, openValue_digitChar hd]
  rfl

/-! ## The end of a numeral -/

/-- The character cannot continue a numeral. -/
def endsNumeral (c : Char) : Prop :=
  digitValue? c = none ∧ c ≠ '.' ∧ c ≠ 'e' ∧ c ≠ 'E'

instance (c : Char) : Decidable (endsNumeral c) :=
  inferInstanceAs (Decidable (_ ∧ _))

/-- After a value the scan stands between tokens. -/
theorem step_deliver (t : Tree) (stack : List Frame) (c : Char) :
    step (deliver t stack) c = between (deliver t stack) c := by
  rcases stack with _ | ⟨_ | _ | _, _⟩
  case cons.stray => simp [deliver, halt, step, between]
  all_goals rfl

theorem step_wholeNumeral {ds : List Nat} {n : Nat} {c : Char} (h : endsNumeral c)
    (stack : List Frame) :
    step (.numeral (wholeNumeral ds n) stack) c =
      step (deliver (.number (wholeNumeral ds n).value) stack) c := by
  obtain ⟨hdigit, hpoint, he, hE⟩ := h
  have hstep : (wholeNumeral ds n).step c = .complete := by
    by_cases hn : n = 0 <;>
      simp [NumeralScan.step, NumeralScan.afterWhole, wholeNumeral, hn, hdigit, hpoint, he, hE]
  rw [step_deliver]
  simp only [step, hstep]

end Scan

/-! ## Whole numbers -/

/-- The character begins a value: it is neither white space nor a bracket that
closes a list. -/
def opensValue (c : Char) : Prop :=
  Scan.isSpace c = false ∧ c ≠ ']'

instance (c : Char) : Decidable (opensValue c) :=
  inferInstanceAs (Decidable (_ ∧ _))

end Json

open Json Json.Scan

/-- A number, once it is written, is read as this one. -/
structure Number.ReadsAs (n m : Number) : Prop where
  opens : ∃ c cs, writeNumber n = c :: cs ∧ opensValue c
  run : ∀ (stack : List Frame) (c : Char) (rest : List Char), endsNumeral c →
    Scan.run (.value stack) (writeNumber n ++ c :: rest) =
      Scan.run (deliver (.number (.ok m)) stack) (c :: rest)

/-- The number that is read of the written form of a number. -/
def Number.reading (n : Number) : Number :=
  match (Scan.run (.value []) (writeNumber n ++ [' '])).finish with
  | .number (.ok m) => m
  | _ => n

/-- A number is read as what it was when it was written. -/
structure Number.ReadsBack (n : Number) : Prop where
  opens : ∃ c cs, writeNumber n = c :: cs ∧ opensValue c
  run : ∀ (stack : List Frame) (c : Char) (rest : List Char), endsNumeral c →
    Scan.run (.value stack) (writeNumber n ++ c :: rest) =
      Scan.run (deliver (.number (.ok n)) stack) (c :: rest)

namespace Number

theorem ReadsBack.readsAs {n : Number} (h : n.ReadsBack) : n.ReadsAs n := ⟨h.opens, h.run⟩

theorem ReadsAs.reading_eq {n m : Number} (h : n.ReadsAs m) : n.reading = m := by
  have hspace := h.run [] ' ' [] (by decide)
  rw [reading, hspace]
  rfl

theorem writeNumber_nat (n : Nat) : writeNumber (.integer n) = Text.decimal n := by
  simp [writeNumber, render, Text.decimal, toString, Int.repr]

theorem opensValue_digit {c : Char} (h : c.isDigit = true) : opensValue c := by
  refine ⟨?_, ?_⟩
  · simp only [isSpace, Bool.or_eq_false_iff, beq_eq_false_iff_ne]
    refine ⟨⟨⟨?_, ?_⟩, ?_⟩, ?_⟩ <;> rintro rfl <;> simp at h
  · rintro rfl
    simp at h

theorem readsBack_nat {n : Nat} (h : n < 2 ^ 64) : ReadsBack (.integer n) where
  opens := by
    rw [writeNumber_nat]
    cases hcs : Text.decimal n with
    | nil => exact absurd hcs Nat.toDigits_ne_nil
    | cons c cs =>
      refine ⟨c, cs, rfl, opensValue_digit ?_⟩
      exact Nat.isDigit_of_mem_toDigits (by decide) (by decide) (hcs ▸ List.mem_cons_self)
  run stack c rest hc := by
    obtain ⟨ds, hds, hrun⟩ := run_decimal n stack
    have hvalue : (wholeNumeral ds n).value = .ok (.integer n) := by
      have hwhole : (Numeral.mk false ds.reverse [] none).value? =
          some (.integer (ofDigits ds.reverse)) := value?_whole (hds ▸ h)
      simp only [NumeralScan.value, NumeralScan.numeral, wholeNumeral, List.reverse_nil,
        List.isEmpty_nil, if_true, hwhole, hds]
    rw [writeNumber_nat, run_append, hrun, run_cons, step_wholeNumeral hc, hvalue, run_cons]

end Number
end ProxyPlan
