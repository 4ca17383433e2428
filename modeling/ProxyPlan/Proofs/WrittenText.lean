/-
ProxyPlan.Proofs.WrittenText — written values are read as the values they were.

The scan is a fold, so what it makes of a written value is stated "for any rest
of the text": from where a value may begin, a written value followed by
anything that ends it leads where delivering its tree leads (`run_spaced`).
That form composes. A container is a bracket, its first part, then parts with
commas before them, and each of these hands over to the next in the same state
that a reader of the tree would expect. Of a layout nothing is used but that it
adds only white space (`Spacing`), so both layouts are settled at once.

Numbers may be read as other numbers than were written. Then a written value is
read as the value with these numbers in it (`Json.reading`), and as itself if
all its numbers read back (`Plain`).
-/
import ProxyPlan.Json.Codec
import ProxyPlan.Proofs.WrittenNumber

namespace ProxyPlan.Json

/-! ## Strings -/

namespace TextScan

/-- The scan of a string goes on over some characters. -/
inductive Takes : TextScan → List Char → TextScan → Prop where
  | nil (t : TextScan) : Takes t [] t
  | cons {t t' t'' : TextScan} {c : Char} {cs : List Char} (first : t.step c = .more t')
      (rest : Takes t' cs t'') : Takes t (c :: cs) t''

theorem Takes.append {t t' t'' : TextScan} {cs ds : List Char} (h : Takes t cs t')
    (h' : Takes t' ds t'') : Takes t (cs ++ ds) t'' := by
  induction h with
  | nil => exact h'
  | cons first _ ih => exact .cons first (ih h')

theorem hexValue?_hexDigit {n : Nat} (h : n < 16) : Text.hexValue? (Text.hexDigit n) = some n := by
  interval_cases n <;> rfl

theorem utf8Size_hexDigit {n : Nat} (h : n < 16) : (Text.hexDigit n).utf8Size = 1 := by
  interval_cases n <;> rfl

/-- A control character is spelled by four digits. -/
theorem takes_control {c : Char} (h : c.toNat < 0x20) (done : List Char) :
    Takes ⟨done, none, .plain⟩
      ['\\', 'u', '0', '0', Text.hexDigit (c.toNat / 16), Text.hexDigit (c.toNat % 16)]
      ⟨c :: done, none, .plain⟩ := by
  have hhigh : c.toNat / 16 < 16 := by omega
  have hlow : c.toNat % 16 < 16 := by omega
  have hcode : 16 * (c.toNat / 16) + c.toNat % 16 = c.toNat := Nat.div_add_mod _ _
  have htrailing : isTrailing c.toNat = false := by
    simp [isTrailing]
    omega
  have hleading : isLeading c.toNat = false := by
    simp [isLeading]
    omega
  have hthird : step ⟨done, none, .unit ⟨2, some 0⟩⟩ (Text.hexDigit (c.toNat / 16)) =
      .more ⟨done, none, .unit ⟨3, some (c.toNat / 16)⟩⟩ := by
    simp [step, unitStep, HexScan.push, utf8Size_hexDigit hhigh, hexValue?_hexDigit hhigh]
  have hfourth : step ⟨done, none, .unit ⟨3, some (c.toNat / 16)⟩⟩
      (Text.hexDigit (c.toNat % 16)) = .more ⟨c :: done, none, .plain⟩ := by
    simp [step, unitStep, HexScan.push, utf8Size_hexDigit hlow, hexValue?_hexDigit hlow, hcode,
      takeUnit, htrailing, hleading, push]
  exact .cons rfl (.cons rfl (.cons rfl (.cons rfl (.cons hthird (.cons hfourth (.nil _))))))

/-- A written character is taken as the character it was. -/
theorem takes_writeChar (c : Char) (done : List Char) :
    Takes ⟨done, none, .plain⟩ (writeChar c) ⟨c :: done, none, .plain⟩ := by
  simp only [writeChar]
  split
  case h_8 hquote hslash _ _ _ _ _ =>
    split
    case isTrue hcontrol => exact takes_control hcontrol done
    case isFalse hplain =>
      refine .cons ?_ (.nil _)
      simp only [step, plainStep, if_neg hquote, if_neg hslash, if_neg hplain]
      rfl
  all_goals exact .cons rfl (.cons rfl (.nil _))

theorem takes_flatMap (cs done : List Char) :
    Takes ⟨done, none, .plain⟩ (cs.flatMap writeChar) ⟨cs.reverse ++ done, none, .plain⟩ := by
  induction cs generalizing done with
  | nil => exact .nil _
  | cons c rest ih =>
    rw [List.flatMap_cons, List.reverse_cons, List.append_assoc]
    exact (takes_writeChar c done).append (ih (c :: done))

/-- The quote after the characters of a string closes it. -/
theorem step_quote (s : String) :
    step ⟨s.toList.reverse ++ [], none, .plain⟩ '"' = .closed (.ok s) := by
  simp [step, plainStep, value]

end TextScan

namespace Scan

theorem run_takes_text {t t' : TextScan} {cs : List Char} (h : t.Takes cs t')
    (stack : List Frame) : run (.text t stack) cs = .text t' stack := by
  induction h with
  | nil => rfl
  | cons first _ ih => rw [run_cons, step, first, ih]

theorem run_takes_key {t t' : TextScan} {cs : List Char} (h : t.Takes cs t')
    (done : List (Key × Tree)) (stack : List Frame) :
    run (.keyText t done stack) cs = .keyText t' done stack := by
  induction h with
  | nil => rfl
  | cons first _ ih => rw [run_cons, step, first, ih]

/-- A written string is read where a value may begin. -/
theorem run_text (s : String) (stack : List Frame) :
    run (.value stack) (writeText s) = deliver (.text (.ok s)) stack := by
  rw [writeText, List.cons_append, run_cons, run_append]
  show run (run (.text .start stack) _) ['"'] = _
  rw [TextScan.start, run_takes_text (TextScan.takes_flatMap s.toList []), run_cons, step,
    TextScan.step_quote]
  rfl

/-- A written string is read where a key may begin. -/
theorem run_key (s : String) (done : List (Key × Tree)) (stack : List Frame) :
    run (.keyText .start done stack) (s.toList.flatMap writeChar ++ ['"']) =
      .colon (.ok s) done stack := by
  rw [run_append, TextScan.start, run_takes_key (TextScan.takes_flatMap s.toList []), run_cons,
    step, TextScan.step_quote]
  rfl

end Scan

/-! ## Values -/

mutual

/-- The numbers in a value. -/
def numbers : Json → List Number
  | .number n => [n]
  | .list items => numbersOfItems items
  | .object fields => numbersOfFields fields
  | .null | .bool _ | .text _ => []
termination_by structural v => v

/-- The numbers in items. -/
def numbersOfItems : List Json → List Number
  | [] => []
  | v :: rest => numbers v ++ numbersOfItems rest
termination_by structural items => items

/-- The numbers in fields. -/
def numbersOfFields : List (String × Json) → List Number
  | [] => []
  | (_, v) :: rest => numbers v ++ numbersOfFields rest
termination_by structural fields => fields

end

/-- Every number in the value reads back. -/
def Plain (v : Json) : Prop := ∀ n ∈ v.numbers, n.ReadsBack

/-- Every number in the value is read as some number once it is written. -/
def Readable (v : Json) : Prop := ∀ n ∈ v.numbers, n.ReadsAs n.reading

mutual

/-- The value with its numbers as they are read once it is written. -/
def reading : Json → Json
  | .number n => .number n.reading
  | .list items => .list (readingOfItems items)
  | .object fields => .object (readingOfFields fields)
  | .null => .null
  | .bool b => .bool b
  | .text s => .text s
termination_by structural v => v

/-- Items with their numbers as they are read. -/
def readingOfItems : List Json → List Json
  | [] => []
  | v :: rest => reading v :: readingOfItems rest
termination_by structural items => items

/-- Fields with their numbers as they are read. -/
def readingOfFields : List (String × Json) → List (String × Json)
  | [] => []
  | (name, v) :: rest => (name, reading v) :: readingOfFields rest
termination_by structural fields => fields

end

mutual

theorem reading_eq_self (v : Json) (h : v.Plain) : v.reading = v := by
  match v with
  | .null | .bool _ | .text _ => rfl
  | .number n => rw [reading, (h n (by simp [numbers])).readsAs.reading_eq]
  | .list items => rw [reading, readingOfItems_eq_self items h]
  | .object fields => rw [reading, readingOfFields_eq_self fields h]
termination_by structural v

theorem readingOfItems_eq_self (items : List Json)
    (h : ∀ n ∈ numbersOfItems items, n.ReadsBack) : readingOfItems items = items := by
  match items with
  | [] => rfl
  | v :: rest =>
    rw [readingOfItems, reading_eq_self v fun n hn => h n (List.mem_append_left _ hn),
      readingOfItems_eq_self rest fun n hn => h n (List.mem_append_right _ hn)]
termination_by structural items

theorem readingOfFields_eq_self (fields : List (String × Json))
    (h : ∀ n ∈ numbersOfFields fields, n.ReadsBack) : readingOfFields fields = fields := by
  match fields with
  | [] => rfl
  | (name, v) :: rest =>
    rw [readingOfFields, reading_eq_self v fun n hn => h n (List.mem_append_left _ hn),
      readingOfFields_eq_self rest fun n hn => h n (List.mem_append_right _ hn)]
termination_by structural fields

end

/-- A value, once it is written, is read as this one. -/
structure ReadsAs (v w : Json) : Prop where
  readable : v.Readable
  eq : v.reading = w

theorem Plain.readsAs {v : Json} (h : v.Plain) : v.ReadsAs v where
  readable n hn := by
    rw [(h n hn).readsAs.reading_eq]
    exact (h n hn).readsAs
  eq := reading_eq_self v h

theorem ReadsAs.number {n m : Number} (h : n.ReadsAs m) : (Json.number n).ReadsAs (.number m) where
  readable k hk := by
    obtain rfl : k = n := by simpa [numbers] using hk
    rw [h.reading_eq]
    exact h
  eq := by rw [reading, h.reading_eq]

/-- Items are read one by one. -/
theorem ReadsAs.list {α : Type} {f g : α → Json} {xs : List α}
    (h : ∀ x ∈ xs, (f x).ReadsAs (g x)) : (Json.list (xs.map f)).ReadsAs (.list (xs.map g)) := by
  induction xs with
  | nil => exact Plain.readsAs (by simp [Plain, numbers, numbersOfItems])
  | cons x rest ih =>
    have hx := h x List.mem_cons_self
    have hrest := ih fun y hy => h y (List.mem_cons_of_mem x hy)
    constructor
    case readable =>
      intro n hn
      obtain hn | hn := List.mem_append.mp hn
      · exact hx.readable n hn
      · exact hrest.readable n hn
    case eq =>
      have htail : readingOfItems (rest.map f) = rest.map g := Json.list.inj hrest.eq
      simp only [List.map_cons, reading, readingOfItems, hx.eq, htail]

/-- Fields are read one by one. -/
theorem ReadsAs.field {name : String} {v w : Json} {fields fields' : List (String × Json)}
    (hv : v.ReadsAs w) (h : (Json.object fields).ReadsAs (.object fields')) :
    (Json.object ((name, v) :: fields)).ReadsAs (.object ((name, w) :: fields')) where
  readable n hn := by
    obtain hn | hn := List.mem_append.mp hn
    · exact hv.readable n hn
    · exact h.readable n hn
  eq := by
    have htail : readingOfFields fields = fields' := Json.object.inj h.eq
    rw [reading, readingOfFields, hv.eq, htail]

/-! ## Layouts

Both layouts write the same tokens in the same order and differ only in the
white space between them.
-/

/-- The white space of a layout: before an item, a key or the closing bracket, by
level, and after a colon. -/
structure Spacing where
  gap : Nat → List Char
  afterColon : List Char

/-- No white space at all. -/
def Spacing.compact : Spacing := ⟨fun _ => [], []⟩

/-- A line for each item and each field. -/
def Spacing.lines : Spacing := ⟨newLine, [' ']⟩

/-- Nothing but white space. -/
structure Spacing.Blank (l : Spacing) : Prop where
  gap : ∀ level, ∀ c ∈ l.gap level, Scan.isSpace c = true
  afterColon : ∀ c ∈ l.afterColon, Scan.isSpace c = true

theorem Spacing.blank_compact : Spacing.compact.Blank where
  gap _ c hc := by cases hc
  afterColon c hc := by cases hc

theorem Spacing.blank_lines : Spacing.lines.Blank where
  gap level c hc := by
    obtain rfl | hc := List.mem_cons.mp hc
    · rfl
    · obtain rfl := List.eq_of_mem_replicate hc
      rfl
  afterColon c hc := by
    obtain rfl := List.mem_singleton.mp hc
    rfl

mutual

/-- A value with the white space of a layout. -/
def spaced (l : Spacing) (level : Nat) : Json → List Char
  | .null => ['n', 'u', 'l', 'l']
  | .bool b => writeBool b
  | .number n => writeNumber n
  | .text s => writeText s
  | .list [] => ['[', ']']
  | .list (v :: rest) =>
    '[' :: (l.gap (level + 1) ++ (spaced l (level + 1) v ++ spacedItems l level rest))
  | .object [] => ['\x7b', '\x7d']
  | .object ((name, v) :: rest) =>
    '\x7b' :: (l.gap (level + 1) ++ (writeText name ++ ':' :: (l.afterColon ++
      (spaced l (level + 1) v ++ spacedFields l level rest))))

/-- The items after the first, and the bracket. -/
def spacedItems (l : Spacing) (level : Nat) : List Json → List Char
  | [] => l.gap level ++ [']']
  | v :: rest =>
    ',' :: (l.gap (level + 1) ++ (spaced l (level + 1) v ++ spacedItems l level rest))

/-- The fields after the first, and the brace. -/
def spacedFields (l : Spacing) (level : Nat) : List (String × Json) → List Char
  | [] => l.gap level ++ ['\x7d']
  | (name, v) :: rest =>
    ',' :: (l.gap (level + 1) ++ (writeText name ++ ':' :: (l.afterColon ++
      (spaced l (level + 1) v ++ spacedFields l level rest))))

end

mutual

theorem compact_eq (level : Nat) (v : Json) : compact v = spaced .compact level v := by
  match v with
  | .null | .bool _ | .number _ | .text _ | .list [] | .object [] => simp only [compact, spaced]
  | .list (v :: rest) =>
    simp [compact, spaced, Spacing.compact, compact_eq (level + 1) v, compactItems_eq level rest]
  | .object ((name, v) :: rest) =>
    simp [compact, spaced, Spacing.compact, compact_eq (level + 1) v, compactFields_eq level rest]

theorem compactItems_eq (level : Nat) (items : List Json) :
    compactItems items = spacedItems .compact level items := by
  match items with
  | [] => rfl
  | v :: rest =>
    simp [compactItems, spacedItems, Spacing.compact, compact_eq (level + 1) v,
      compactItems_eq level rest]

theorem compactFields_eq (level : Nat) (fields : List (String × Json)) :
    compactFields fields = spacedFields .compact level fields := by
  match fields with
  | [] => rfl
  | (name, v) :: rest =>
    simp [compactFields, spacedFields, Spacing.compact, compact_eq (level + 1) v,
      compactFields_eq level rest]

end

mutual

theorem indented_eq (level : Nat) (v : Json) : indented level v = spaced .lines level v := by
  match v with
  | .null | .bool _ | .number _ | .text _ | .list [] | .object [] => simp only [indented, spaced]
  | .list (v :: rest) =>
    simp [indented, spaced, Spacing.lines, indented_eq (level + 1) v, indentedItems_eq level rest]
  | .object ((name, v) :: rest) =>
    simp [indented, spaced, Spacing.lines, indented_eq (level + 1) v, indentedFields_eq level rest]

theorem indentedItems_eq (level : Nat) (items : List Json) :
    indentedItems level items = spacedItems .lines level items := by
  match items with
  | [] => rfl
  | v :: rest =>
    simp [indentedItems, spacedItems, Spacing.lines, indented_eq (level + 1) v,
      indentedItems_eq level rest]

theorem indentedFields_eq (level : Nat) (fields : List (String × Json)) :
    indentedFields level fields = spacedFields .lines level fields := by
  match fields with
  | [] => rfl
  | (name, v) :: rest =>
    simp [indentedFields, spacedFields, Spacing.lines, indented_eq (level + 1) v,
      indentedFields_eq level rest]

end

/-! ## Scanning what is written -/

/-- A written value begins like a value. -/
theorem opensValue_spaced {v : Json} (h : v.Readable) (l : Spacing)
    (level : Nat) : ∃ c cs, spaced l level v = c :: cs ∧ opensValue c := by
  cases v with
  | null => exact ⟨_, _, rfl, by decide⟩
  | bool b => cases b <;> exact ⟨_, _, rfl, by decide⟩
  | number n => exact (h n (by simp [numbers])).opens
  | text s => exact ⟨_, _, rfl, by decide⟩
  | list items => cases items <;> exact ⟨_, _, rfl, by decide⟩
  | object fields => rcases fields with _ | ⟨⟨name, v⟩, rest⟩ <;> exact ⟨_, _, rfl, by decide⟩

namespace Scan

/-- The scan passes over white space between tokens. -/
theorem run_spaces {s : Scan} (h : ∀ c, isSpace c = true → step s c = s) {spaces : List Char}
    (hspaces : ∀ c ∈ spaces, isSpace c = true) (rest : List Char) :
    run s (spaces ++ rest) = run s rest := by
  induction spaces with
  | nil => rfl
  | cons c spaces ih =>
    rw [List.cons_append, run_cons, h c (hspaces c (by simp)),
      ih fun d hd => hspaces d (by simp [hd])]

/-- Where an item may begin, a value is read like anywhere else. -/
theorem step_item {c : Char} (h : opensValue c) (done : List Tree) (stack : List Frame) :
    step (.nextItem done stack) c = step (.value (.list done :: stack)) c := by
  simp [step, h.1, h.2]

theorem step_firstItem {c : Char} (h : opensValue c) (stack : List Frame) :
    step (.firstItem stack) c = step (.value (.list [] :: stack)) c := by
  simp [step, h.1, h.2]

/-- The characters begin with one that ends a value. -/
def Ends (cs : List Char) : Prop := ∃ c rest, cs = c :: rest ∧ endsNumeral c

theorem endsNumeral_space {c : Char} (h : isSpace c = true) : endsNumeral c := by
  simp only [isSpace, Bool.or_eq_true, beq_iff_eq] at h
  rcases h with ((rfl | rfl) | rfl) | rfl <;> decide

/-- White space, if there is any, ends a value, and so does what follows it. -/
theorem ends_spaces {spaces : List Char} (h : ∀ c ∈ spaces, isSpace c = true) {c : Char}
    (hc : endsNumeral c) (rest : List Char) : Ends (spaces ++ c :: rest) := by
  cases spaces with
  | nil => exact ⟨c, rest, rfl, hc⟩
  | cons d spaces => exact ⟨d, spaces ++ c :: rest, rfl, endsNumeral_space (h d (by simp))⟩

section Layout

variable {l : Spacing} (hl : l.Blank)

include hl

theorem ends_items (level : Nat) (items : List Json) (rest : List Char) :
    Ends (spacedItems l level items ++ rest) := by
  cases items with
  | nil =>
    rw [spacedItems, List.append_assoc]
    exact ends_spaces (hl.gap level) (by decide) rest
  | cons v items => exact ⟨_, _, rfl, by decide⟩

theorem ends_fields (level : Nat) (fields : List (String × Json)) (rest : List Char) :
    Ends (spacedFields l level fields ++ rest) := by
  rcases fields with _ | ⟨⟨name, v⟩, fields⟩
  · rw [spacedFields, List.append_assoc]
    exact ends_spaces (hl.gap level) (by decide) rest
  · exact ⟨_, _, rfl, by decide⟩

/-- The key of a field, the colon and the white space after it. -/
theorem run_fieldName (name : String) (done : List (Key × Tree)) (stack : List Frame)
    (rest : List Char) :
    run (.keyText .start done stack)
        (name.toList.flatMap writeChar ++ '"' :: ':' :: (l.afterColon ++ rest)) =
      run (.value (.object done (.ok name) :: stack)) rest := by
  have hsplit : name.toList.flatMap writeChar ++ '"' :: ':' :: (l.afterColon ++ rest) =
      (name.toList.flatMap writeChar ++ ['"']) ++ ':' :: (l.afterColon ++ rest) := by simp
  rw [hsplit, run_append, run_key, run_cons]
  show run (.value (.object done (.ok name) :: stack)) _ = _
  exact run_spaces (fun c hc => by simp [step, hc]) hl.afterColon rest

mutual

/-- A written value is read as what it was, numbers aside, whatever follows; only a
number needs something that ends it. -/
theorem run_spaced (v : Json) (h : v.Readable) (level : Nat) (stack : List Frame)
    (rest : List Char) (hrest : ∀ n, v = .number n → Ends rest) :
    run (.value stack) (spaced l level v ++ rest) =
      run (deliver (.ofJson v.reading) stack) rest := by
  match v with
  | .null => rfl
  | .bool true => rfl
  | .bool false => rfl
  | .number n =>
    obtain ⟨c, rest, rfl, hc⟩ := hrest n rfl
    exact (h n (by simp [numbers])).run stack c rest hc
  | .text s =>
    rw [spaced, run_append, run_text]
    rfl
  | .list [] => rfl
  | .list (v :: items) =>
    have hv : v.Readable := fun n hn => h n (by simp [numbers, numbersOfItems, hn])
    have hitems : ∀ n ∈ numbersOfItems items, n.ReadsAs n.reading := fun n hn =>
      h n (by simp [numbers, numbersOfItems, hn])
    have hends := ends_items hl level items rest
    simp only [spaced, List.cons_append, List.append_assoc]
    rw [run_cons]
    show run (.firstItem stack) _ = _
    rw [run_spaces (fun c hc => by simp [step, hc]) (hl.gap _)]
    obtain ⟨c, cs, hcs, hc⟩ := opensValue_spaced hv l (level + 1)
    have hfirst : run (.firstItem stack)
          (spaced l (level + 1) v ++ (spacedItems l level items ++ rest)) =
        run (.value (.list [] :: stack))
          (spaced l (level + 1) v ++ (spacedItems l level items ++ rest)) := by
      rw [hcs, List.cons_append, run_cons, run_cons, step_firstItem hc]
    rw [hfirst, run_spaced v hv (level + 1) _ _ fun _ _ => hends]
    exact run_spacedItems items hitems level [.ofJson v.reading] stack rest
  | .object [] => rfl
  | .object ((name, v) :: fields) =>
    have hv : v.Readable := fun n hn => h n (by simp [numbers, numbersOfFields, hn])
    have hfields : ∀ n ∈ numbersOfFields fields, n.ReadsAs n.reading := fun n hn =>
      h n (by simp [numbers, numbersOfFields, hn])
    have hends := ends_fields hl level fields rest
    simp only [spaced, writeText, List.cons_append, List.append_assoc, List.nil_append]
    rw [run_cons]
    show run (.firstKey stack) _ = _
    rw [run_spaces (fun c hc => by simp [step, hc]) (hl.gap _), run_cons]
    show run (.keyText .start [] stack) _ = _
    rw [run_fieldName hl, run_spaced v hv (level + 1) _ _ fun _ _ => hends]
    exact run_spacedFields fields hfields level [(.ok name, .ofJson v.reading)] stack rest
termination_by structural v

/-- Further items are read up to the bracket. -/
theorem run_spacedItems (items : List Json) (h : ∀ n ∈ numbersOfItems items, n.ReadsAs n.reading)
    (level : Nat) (done : List Tree) (stack : List Frame) (rest : List Char) :
    run (.itemEnd done stack) (spacedItems l level items ++ rest) =
      run (deliver (.list (done.reverse ++ Tree.ofItems (readingOfItems items)) .closed) stack)
        rest := by
  match items with
  | [] =>
    rw [spacedItems, List.append_assoc,
      run_spaces (fun c hc => by simp [step, between, hc]) (hl.gap level)]
    simp [run_cons, step, between, isSpace, Tree.ofItems, readingOfItems]
  | v :: items =>
    have hv : v.Readable := fun n hn => h n (by simp [numbersOfItems, hn])
    have hitems : ∀ n ∈ numbersOfItems items, n.ReadsAs n.reading := fun n hn =>
      h n (by simp [numbersOfItems, hn])
    have hends := ends_items hl level items rest
    simp only [spacedItems, List.cons_append, List.append_assoc]
    rw [run_cons]
    show run (.nextItem done stack) _ = _
    rw [run_spaces (fun c hc => by simp [step, hc]) (hl.gap _)]
    obtain ⟨c, cs, hcs, hc⟩ := opensValue_spaced hv l (level + 1)
    have hnext : run (.nextItem done stack)
          (spaced l (level + 1) v ++ (spacedItems l level items ++ rest)) =
        run (.value (.list done :: stack))
          (spaced l (level + 1) v ++ (spacedItems l level items ++ rest)) := by
      rw [hcs, List.cons_append, run_cons, run_cons, step_item hc]
    rw [hnext, run_spaced v hv (level + 1) _ _ fun _ _ => hends]
    show run (.itemEnd (.ofJson v.reading :: done) stack) _ = _
    rw [run_spacedItems items hitems level _ stack rest]
    simp [Tree.ofItems, readingOfItems]
termination_by structural items

/-- Further fields are read up to the brace. -/
theorem run_spacedFields (fields : List (String × Json))
    (h : ∀ n ∈ numbersOfFields fields, n.ReadsAs n.reading) (level : Nat) (done : List (Key × Tree))
    (stack : List Frame) (rest : List Char) :
    run (.fieldEnd done stack) (spacedFields l level fields ++ rest) =
      run (deliver (.object (done.reverse ++ Tree.ofFields (readingOfFields fields)) .closed)
        stack) rest := by
  match fields with
  | [] =>
    rw [spacedFields, List.append_assoc,
      run_spaces (fun c hc => by simp [step, between, hc]) (hl.gap level)]
    simp [run_cons, step, between, isSpace, Tree.ofFields, readingOfFields]
  | (name, v) :: fields =>
    have hv : v.Readable := fun n hn => h n (by simp [numbersOfFields, hn])
    have hfields : ∀ n ∈ numbersOfFields fields, n.ReadsAs n.reading := fun n hn =>
      h n (by simp [numbersOfFields, hn])
    have hends := ends_fields hl level fields rest
    simp only [spacedFields, writeText, List.cons_append, List.append_assoc, List.nil_append]
    rw [run_cons]
    show run (.nextKey done stack) _ = _
    rw [run_spaces (fun c hc => by simp [step, hc]) (hl.gap _), run_cons]
    show run (.keyText .start done stack) _ = _
    rw [run_fieldName hl, run_spaced v hv (level + 1) _ _ fun _ _ => hends]
    show run (.fieldEnd ((.ok name, .ofJson v.reading) :: done) stack) _ = _
    rw [run_spacedFields fields hfields level _ stack rest]
    simp [Tree.ofFields, readingOfFields]
termination_by structural fields

end

end Layout

end Scan

/-- A text is read as the value it spells, numbers aside: in whatever layout, with
white space after it or, unless it is a number, with nothing. -/
theorem scan_spaced {l : Spacing} (hl : l.Blank) {v : Json}
    (h : v.Readable) {text : String} {spaces : List Char}
    (htext : text.toList = spaced l 0 v ++ spaces)
    (hspaces : ∀ c ∈ spaces, Scan.isSpace c = true) (hend : ∀ n, v = .number n → spaces ≠ []) :
    scan text = .complete (.ofJson v.reading) false := by
  have hends : ∀ n, v = .number n → Scan.Ends spaces := by
    intro n hn
    obtain ⟨c, rest, rfl⟩ := List.exists_cons_of_ne_nil (hend n hn)
    exact ⟨c, rest, rfl, Scan.endsNumeral_space (hspaces c (by simp))⟩
  rw [scan, htext, Scan.run_spaced hl v h 0 [] spaces hends, ← List.append_nil spaces]
  exact Scan.run_spaces (fun c hc => by simp [Scan.deliver, Scan.step, Scan.between, hc]) hspaces []

/-! ## Whole texts -/

namespace Codec

variable {α : Type} (c : Codec α) {v : Json}

theorem readText_of_scan {text : String} (h : scan text = .complete (.ofJson v) false) :
    c.readText text = c.read .start (.ofJson v) := by
  rw [readText, h]
  show (c.read .start (.ofJson v)).bind _ = _
  cases c.read .start (.ofJson v) <;> rfl

/-- Reading a written file is reading the value that was written to it. -/
theorem readText_file (h : v.Plain) :
    c.readText (v.toLines ++ "\n") = c.read .start (.ofJson v) := by
  have hchars : (v.toLines ++ "\n").toList = spaced .lines 0 v ++ ['\n'] := by
    simp [toLines, indented_eq]
  have hscan := scan_spaced Spacing.blank_lines h.readsAs.readable hchars
    (by simp [Scan.isSpace]) (by simp)
  rw [h.readsAs.eq] at hscan
  exact c.readText_of_scan hscan

section Layout

variable {w : Json} (h : v.ReadsAs w) (hnumber : ∀ n, v ≠ .number n)

include h hnumber

/-- With nothing after it a number is not complete before the text ends; any
other value is. -/
theorem readText_spaced {l : Spacing} (hl : l.Blank) {text : String}
    (htext : text.toList = spaced l 0 v) : c.readText text = c.read .start (.ofJson w) := by
  have hspaces : text.toList = spaced l 0 v ++ [] := by rw [htext, List.append_nil]
  rw [← h.eq]
  refine c.readText_of_scan (scan_spaced hl h.readable hspaces (by simp) ?_)
  intro n hn
  exact absurd hn (hnumber n)

theorem readText_toLines : c.readText v.toLines = c.read .start (.ofJson w) :=
  c.readText_spaced h hnumber Spacing.blank_lines (by simp [toLines, indented_eq])

theorem readText_toText : c.readText v.toText = c.read .start (.ofJson w) :=
  c.readText_spaced h hnumber Spacing.blank_compact (by simp [toText, compact_eq 0])

end Layout

end Codec

end ProxyPlan.Json
