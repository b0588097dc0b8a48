import MercuryFix.ConfigBuffer

/-!
# From lines to items

`itemize` makes the items from the buffer that `parseFile` makes from its lines.
-/

namespace MercuryFix

section Items

open ConfigFile

def heapItem (entry : Entry) : Item := ⟨some (.heap entry.1), some (.heap entry.2)⟩

/-- The items with these entries, an item that is being worked on, and unused ones
behind it. -/
def itemsWith (copied : List Entry) (item : Item) (total : Nat) : List Item :=
  copied.map heapItem ++ item :: List.replicate (total - copied.length - 1) ⟨none, none⟩

variable (copied : List Entry) (item : Item) (total : Nat)

theorem storeItem_itemsWith (stored : Item) :
    storeItem (itemsWith copied item total) copied.length stored =
      .ok (itemsWith copied stored total) := by
  have inside : copied.length < (itemsWith copied item total).length := by
    simp [itemsWith]
  rw [storeItem, if_pos inside]
  simp [itemsWith]

theorem itemsWith_heapItem (entry : Entry) (room : copied.length + 1 < total) :
    itemsWith copied (heapItem entry) total = itemsWith (copied ++ [entry]) ⟨none, none⟩ total := by
  obtain ⟨unused, rfl⟩ : ∃ unused, total = copied.length + 2 + unused :=
    ⟨total - copied.length - 2, by omega⟩
  have before : copied.length + 2 + unused - copied.length - 1 = unused + 1 := by
    omega
  have after : copied.length + 2 + unused - (copied.length + 1) - 1 = unused := by
    omega
  simp [itemsWith, before, after, List.replicate_succ]

theorem itemsWith_cons (entry : Entry) : itemsWith (entry :: copied) item total =
      heapItem entry :: itemsWith copied item (total - 1) := by
  have unused : total - (copied.length + 1) - 1 = total - 1 - copied.length - 1 := by
    omega
  rw [itemsWith, itemsWith, List.map_cons, List.cons_append, List.length_cons, unused]

theorem freeItems_itemsWith (unset : item.value = none) :
    freeItems (itemsWith copied item total) = .ok () := by
  induction copied generalizing total with
  | nil => simp [itemsWith, freeItems, unset]
  | cons entry copied induction =>
    rw [itemsWith_cons, freeItems]
    exact induction (total - 1)

theorem freeItems_uncopied (val : Nat) :
    freeItems (itemsWith copied ⟨none, some (.fbuf val)⟩ total) = .error .invalidFree := by
  induction copied generalizing total with
  | nil => rfl
  | cons entry copied induction =>
    rw [itemsWith_cons, freeItems]
    exact induction (total - 1)

end Items

section Itemize

open ConfigFile

variable (memory : ConfigMemory)

theorem replicate_nul_cons (count : Nat) (rest : List UInt8) :
    List.replicate count 0 ++ 0 :: rest = 0 :: (List.replicate count 0 ++ rest) := by
  rw [← List.cons_append, ← List.replicate_succ, List.replicate_succ', List.append_assoc]
  rfl

theorem pointToValue_strings (entry : EntryText) (noNul : 0 ∉ entry.text) (pre rest : List UInt8) :
    ∃ fbuf val, pointToValue (pre ++ (entry.text ++ 0 :: rest)) pre.length =
        .ok (some (fbuf, val)) ∧
      stringAt fbuf pre.length = .ok entry.token ∧
      stringAt fbuf val = .ok entry.value ∧
      LineEnd fbuf val (entry.trail.length + 1) rest := by
  have noNulToken : 0 ∉ entry.token := fun member =>
    noNul (List.mem_append_left _ member)
  have noNulValue : 0 ∉ entry.value := fun member =>
    noNul_rest entry noNul (List.mem_append_left _ member)
  refine ⟨_, _, pointToValue_entry entry pre rest noNul, ?_, ?_,
    ⟨pre ++ (entry.token ++ List.replicate entry.gap.length 0), entry.value, ?_, ?_,
      noNulValue, Nat.succ_pos _⟩⟩
  · cases gap : entry.gap with
    | nil =>
      have value := EntryText.value_eq_nil gap
      rw [value, EntryText.trail_eq_nil value]
      exact stringAt_eq rfl rfl noNulToken
    | cons white more => exact stringAt_eq rfl rfl noNulToken
  · have split : pre ++ (entry.token ++ (List.replicate entry.gap.length 0 ++
        (entry.value ++ (List.replicate entry.trail.length 0 ++ 0 :: rest)))) =
          (pre ++ (entry.token ++ List.replicate entry.gap.length 0)) ++
            (entry.value ++ 0 :: (List.replicate entry.trail.length 0 ++ rest)) := by
      simp [replicate_nul_cons]
    exact stringAt_eq split (by simp) noNulValue
  · simp [replicate_nul_cons, List.replicate_succ]
  · simp

theorem itemizeLoop_entry (entry : EntryText) (noNul : 0 ∉ entry.text)
    (copied : List Entry) (total : Nat) (pre rest : List UInt8) (fuel lnum : Nat) :
    ∃ fbuf val, LineEnd fbuf val (entry.trail.length + 1) rest ∧
      itemizeLoop memory (fuel + 1) (pre ++ (entry.text ++ 0 :: rest))
          (itemsWith copied ⟨none, none⟩ total) copied.length
          (lnum, .line pre.length) =
        if (memory.copies copied.length).1 = false then
          .ok (-1, itemsWith copied ⟨none, some (.fbuf val)⟩ total)
        else if (memory.copies copied.length).2 = false then
          .ok (-1, itemsWith copied ⟨none, none⟩ total)
        else
          (getNextLine fbuf (fbuf.length + 1) lnum val).bind fun next =>
            itemizeLoop memory fuel fbuf
              (itemsWith copied (heapItem (entry.token, entry.value)) total)
              (copied.length + 1) next := by
  obtain ⟨fbuf, val, points, token, value, ends⟩ := pointToValue_strings entry noNul pre rest
  refine ⟨fbuf, val, ends, ?_⟩
  obtain ⟨first, more, shape, plain⟩ := exists_token entry
  have found : (pre ++ (entry.text ++ 0 :: rest))[pre.length]? = some first := by
    simp [EntryText.text, shape]
  have notStop : first ≠ 0xFF := (entry.token_first first (by rw [shape]; rfl)).2
  rw [itemizeLoop, found]
  dsimp only
  rw [if_neg notStop, storeItem_itemsWith, points]
  dsimp only [bind, Except.bind]
  rw [token]
  dsimp only
  split
  · rw [storeItem_itemsWith]
  · rw [value]
    dsimp only
    split
    · rw [storeItem_itemsWith]
    · rw [storeItem_itemsWith]
      rfl

theorem itemizeLoop_unterminated (entry : EntryText) (noNul : 0 ∉ entry.text)
    (copied : List Entry) (total : Nat) (pre : List UInt8) (fuel lnum : Nat) :
    itemizeLoop memory (fuel + 1) (pre ++ entry.text)
        (itemsWith copied ⟨none, none⟩ total) copied.length
        (lnum, .line pre.length) = .error .outside := by
  obtain ⟨first, more, shape, plain⟩ := exists_token entry
  have found : (pre ++ entry.text)[pre.length]? = some first := by
    simp [EntryText.text, shape]
  have notStop : first ≠ 0xFF := (entry.token_first first (by rw [shape]; rfl)).2
  rw [itemizeLoop, found]
  dsimp only
  rw [if_neg notStop, storeItem_itemsWith, pointToValue_unterminated entry pre noNul]
  rfl

/-- What `itemize` returns for an end of the work on the lines. -/
def itemized (total : Nat) :
    List Entry × ParseEnd → Except ConfigFault (Int × Option (List Item))
  | (entries, .done) => .ok (0, some (itemsWith entries ⟨none, none⟩ total))
  | (_, .floating lnum) => .ok (lnum, none)
  | (_, .noMemory) => .ok (-1, none)
  | (_, .invalidFree) => .error .invalidFree
  | (_, .outside) => .error .outside

def itemizeFrom (fuel : Nat) (fbuf : List UInt8) (items : List Item) (count : Nat)
    (next : Except ConfigFault (Nat × NextLine)) :
    Except ConfigFault (Int × Option (List Item)) :=
  next.bind fun next =>
    (itemizeLoop memory fuel fbuf items count next).bind itemizeOut

variable {memory}

theorem bind_itemizeLoop (fuel : Nat) (fbuf : List UInt8) (items : List Item)
    (count : Nat) (next : Except ConfigFault (Nat × NextLine)) :
    (next.bind fun next => itemizeLoop memory fuel fbuf items count next).bind
        itemizeOut = itemizeFrom memory fuel fbuf items count next := by
  cases next <;> rfl

theorem itemizeOut_uncopied (copied : List Entry) (total val : Nat) :
    itemizeOut (-1, itemsWith copied ⟨none, some (.fbuf val)⟩ total) = .error .invalidFree := by
  rw [itemizeOut, if_pos (show (-1 : Int) ≠ 0 by decide), freeItems_uncopied]
  rfl

theorem itemizeOut_failed (copied : List Entry) (total : Nat) :
    itemizeOut (-1, itemsWith copied ⟨none, none⟩ total) = .ok (-1, none) := by
  rw [itemizeOut, if_pos (show (-1 : Int) ≠ 0 by decide), freeItems_itemsWith _ _ _ rfl]
  rfl

theorem itemizeFrom_floating {fuel lnum : Nat} (positive : 0 < lnum)
    (fbuf : List UInt8) (copied : List Entry) (total count : Nat) :
    itemizeFrom memory (fuel + 1) fbuf (itemsWith copied ⟨none, none⟩ total) count
      (.ok (lnum, .floating)) = .ok (lnum, none) := by
  have nonzero : (lnum : Int) ≠ 0 := by omega
  simp only [itemizeFrom, itemizeLoop, Except.bind, itemizeOut]
  rw [if_pos nonzero, freeItems_itemsWith _ _ _ rfl]
  rfl

theorem itemizeFrom_null (fuel lnum : Nat) (fbuf : List UInt8) (copied : List Entry)
    (total count : Nat) :
    itemizeFrom memory (fuel + 1) fbuf (itemsWith copied ⟨none, none⟩ total) count
        (.ok (lnum, .null)) = itemized total (copied, .done) :=
  rfl

theorem itemizeFrom_stop (pre more : List UInt8) (fuel lnum : Nat)
    (copied : List Entry) (total count : Nat) :
    itemizeFrom memory (fuel + 1) (pre ++ 0xFF :: more) (itemsWith copied ⟨none, none⟩ total) count
        (.ok (lnum, .line pre.length)) = itemized total (copied, .done) := by
  have found : (pre ++ 0xFF :: more)[pre.length]? = some 0xFF := by
    simp
  simp only [itemizeFrom, Except.bind]
  rw [itemizeLoop, found]
  rfl

theorem itemizeFrom_entry (entry : EntryText) (noNul : 0 ∉ entry.text)
    (pre last : List UInt8) (lines : List (List UInt8)) {copied : List Entry}
    {total : Nat} (room : copied.length + 1 < total) {fuel lnum : Nat}
    (behind : ∀ fbuf val nuls, LineEnd fbuf val nuls (joined lines last) →
      itemizeFrom memory fuel fbuf
          (itemsWith (copied ++ [(entry.token, entry.value)]) ⟨none, none⟩ total)
          (copied.length + 1) (getNextLine fbuf (fbuf.length + 1) lnum val) =
        itemized total (goingOn (copied ++ [(entry.token, entry.value)])
          (parseLines memory.copies last (copied.length + 1) (lnum + nuls) lines))) :
    itemizeFrom memory (fuel + 1) (pre ++ (entry.text ++ 0 :: joined lines last))
        (itemsWith copied ⟨none, none⟩ total) copied.length
        (.ok (lnum, .line pre.length)) =
      itemized total (goingOn copied
        (parseLines memory.copies last copied.length lnum (entry.text :: lines))) := by
  obtain ⟨fbuf, val, ends, round⟩ := itemizeLoop_entry memory entry noNul
    copied total pre (joined lines last) fuel lnum
  rw [itemizeFrom, Except.bind, round, parseLines, entry.lineKind_text]
  dsimp only
  by_cases token : (memory.copies copied.length).1 = false
  · rw [if_pos token, if_pos token]
    exact itemizeOut_uncopied copied total val
  rw [if_neg token, if_neg token]
  by_cases value : (memory.copies copied.length).2 = false
  · rw [if_pos value, if_pos value]
    exact itemizeOut_failed copied total
  rw [if_neg value, if_neg value, bind_itemizeLoop, itemsWith_heapItem copied total _ room,
    behind fbuf val _ ends, entry.entryToken_text, entry.entryValue_text, entry.entryTrail_text]
  simp [goingOn]

theorem itemizeFrom_last {last fbuf : List UInt8} {str nuls : Nat}
    (ends : LineEnd fbuf str nuls last) (noNul : 0 ∉ last) (copied : List Entry)
    (total fuel steps lnum : Nat) :
    itemizeFrom memory (fuel + 1) fbuf (itemsWith copied ⟨none, none⟩ total)
        copied.length (getNextLine fbuf (steps + 2) lnum str) =
      itemized total (goingOn copied
        (parseLines memory.copies last copied.length (lnum + nuls) [])) := by
  rw [parseLines]
  cases kind : lineKind last with
  | blank =>
    rw [getNextLine_unterminated steps lnum ends noNul (.inl kind), itemizeFrom_null]
    simp [goingOn]
  | comment =>
    rw [getNextLine_unterminated steps lnum ends noNul (.inr kind), itemizeFrom_null]
    simp [goingOn]
  | floating =>
    have positive := ends.number_pos lnum
    rw [← List.append_nil last] at ends
    rw [getNextLine_floating (steps + 1) lnum ends noNul kind, itemizeFrom_floating positive]
    rfl
  | stop =>
    obtain ⟨more, rfl⟩ := exists_of_stop kind
    obtain ⟨front, rfl, finds⟩ := getNextLine_line (steps + 1) lnum ends
      (by decide) (by decide) (by decide)
    rw [finds, itemizeFrom_stop]
    simp [goingOn]
  | entry =>
    obtain ⟨entry, rfl⟩ := exists_of_entry kind
    rw [← List.append_nil entry.text] at ends
    obtain ⟨front, split, finds⟩ := getNextLine_entry (steps + 1) lnum entry noNul ends
    rw [List.append_nil] at split
    subst split
    rw [finds, itemizeFrom, Except.bind, itemizeLoop_unterminated memory entry noNul]
    rfl

theorem itemize_lines {lines : List (List UInt8)} {last fbuf : List UInt8}
    {str nuls : Nat} (ends : LineEnd fbuf str nuls (joined lines last))
    (noNul : ∀ line ∈ lines, 0 ∉ line) (noNulLast : 0 ∉ last)
    {copied : List Entry} {total : Nat}
    (room : copied.length + lines.length < total) {fuel steps : Nat}
    (enough : lines.length + 1 < steps) (more : lines.length + 1 < fuel)
    (lnum : Nat) :
    itemizeFrom memory fuel fbuf (itemsWith copied ⟨none, none⟩ total) copied.length
        (getNextLine fbuf steps lnum str) =
      itemized total (goingOn copied
        (parseLines memory.copies last copied.length (lnum + nuls) lines)) := by
  induction lines generalizing fbuf str nuls copied fuel steps lnum with
  | nil =>
    obtain ⟨steps, rfl⟩ : ∃ less, steps = less + 2 :=
      ⟨steps - 2, by rw [List.length_nil] at enough; omega⟩
    obtain ⟨fuel, rfl⟩ : ∃ less, fuel = less + 1 := ⟨fuel - 1, by omega⟩
    exact itemizeFrom_last ends noNulLast copied total fuel steps lnum
  | cons line lines induction =>
    rw [List.length_cons] at room enough more
    obtain ⟨steps, rfl⟩ : ∃ less, steps = less + 1 := ⟨steps - 1, by omega⟩
    obtain ⟨fuel, rfl⟩ : ∃ less, fuel = less + 1 := ⟨fuel - 1, by omega⟩
    rw [List.forall_mem_cons] at noNul
    rw [joined] at ends
    have later {place : Nat} (ends : LineEnd fbuf place 1 (joined lines last)) :
        itemizeFrom memory (fuel + 1) fbuf (itemsWith copied ⟨none, none⟩ total)
            copied.length (getNextLine fbuf steps (lnum + nuls) place) =
          itemized total (goingOn copied (parseLines memory.copies last
            copied.length (lnum + nuls + 1) lines)) :=
      induction ends noNul.2 (by omega) (by omega) (by omega) (lnum + nuls)
    cases kind : lineKind line with
    | blank =>
      by_cases empty : line = []
      · subst empty
        rw [parseLines, kind]
        have passed := induction ends.of_nil noNul.2 (by omega : copied.length +
          lines.length < total) (by omega : lines.length + 1 < steps + 1)
          (by omega : lines.length + 1 < fuel + 1) lnum
        exact passed
      · obtain ⟨place, ends, skips⟩ := getNextLine_blank steps lnum ends empty
          (all_wspace_of_blank kind)
        rw [skips, parseLines, kind]
        exact later ends
    | comment =>
      obtain ⟨place, ends, skips⟩ := getNextLine_comment steps lnum ends noNul.1
        (exists_of_comment kind)
      rw [skips, parseLines, kind]
      exact later ends
    | floating =>
      rw [getNextLine_floating steps lnum ends noNul.1 kind,
        itemizeFrom_floating (ends.number_pos lnum), parseLines, kind]
      rfl
    | stop =>
      obtain ⟨more, rfl⟩ := exists_of_stop kind
      obtain ⟨front, rfl, finds⟩ := getNextLine_line steps lnum ends
        (by decide) (by decide) (by decide)
      rw [finds, itemizeFrom_stop, parseLines, kind]
      simp [goingOn]
    | entry =>
      obtain ⟨entry, rfl⟩ := exists_of_entry kind
      obtain ⟨front, rfl, finds⟩ := getNextLine_entry steps lnum entry noNul.1 ends
      rw [finds]
      apply itemizeFrom_entry entry noNul.1 front last lines (by omega)
      intro fbuf val nuls' ends
      have counts : (copied ++ [(entry.token, entry.value)]).length = copied.length + 1 := by
        simp
      have shorter := ends.length_lt.2
      have lineCount := length_le_joined lines last
      rw [← counts]
      exact induction ends noNul.2 (by omega) (by omega) (by omega) (lnum + nuls)

theorem firstLine_skipped {line rest : List UInt8}
    (skipped : lineKind line ≠ .stop ∧ lineKind line ≠ .entry)
    (present : line ≠ [] ∨ rest.head? = some 0) :
    firstLine (line ++ rest) = getNextLine (line ++ rest) ((line ++ rest).length + 1) 1 0 := by
  cases line with
  | nil =>
    obtain ⟨more, rfl⟩ : ∃ more, rest = 0 :: more := by
      cases rest with
      | nil => simp at present
      | cons byte more => exact ⟨more, by simpa using present⟩
    rfl
  | cons first line =>
    refine if_pos ?_
    by_contra plain
    obtain ⟨-, notWhite, notComment⟩ := not_or.mp plain |>.imp_right not_or.mp
    rw [lineKind, if_neg notWhite, if_neg notComment] at skipped
    split_ifs at skipped <;> simp at skipped

theorem firstLine_line {first : UInt8} {line : List UInt8} (rest : List UInt8)
    (kind : lineKind (first :: line) = .stop ∨ lineKind (first :: line) = .entry)
    (nonzero : first ≠ 0) : firstLine (first :: (line ++ rest)) = .ok (1, .line 0) := by
  refine if_neg ?_
  rintro (zero | white | comment)
  · exact nonzero zero
  · rw [lineKind, if_pos white] at kind
    split_ifs at kind <;> simp at kind
  · rw [comment] at kind
    revert kind
    simp [lineKind, show wspace commentChar = false by decide]

theorem firstLine_entry (entry : EntryText) (noNul : 0 ∉ entry.text)
    (rest : List UInt8) : firstLine (entry.text ++ rest) = .ok (1, .line 0) := by
  have kind := entry.lineKind_text
  obtain ⟨byte, more, token, -⟩ := exists_token entry
  have text : entry.text = byte :: (more ++ (entry.gap ++ (entry.value ++ entry.trail))) := by
    rw [EntryText.text, token, List.cons_append]
  rw [text] at kind noNul
  rw [text]
  exact firstLine_line _ (.inr kind) fun zero => noNul (by simp [zero])

theorem getNextLine_open {text : List UInt8} (noNul : 0 ∉ text) (present : text ≠ [])
    (fuel lnum : Nat) : getNextLine text (fuel + 1) lnum 0 = .ok (lnum, .null) := by
  have inside : ¬ text.length ≤ 0 := by
    simpa using present
  have runs : walk (· == 0) text 0 = none :=
    walk_none (List.nil_append text).symm rfl (nul_passed noNul)
  rw [getNextLine, if_neg inside, runs]

theorem itemizeFrom_unterminated {last : List UInt8} (noNul : 0 ∉ last) (fuel total : Nat) :
    itemizeFrom memory (fuel + 1) last (itemsWith [] ⟨none, none⟩ total) 0
        (firstLine last) = itemized total (parseFile memory.copies [] last) := by
  by_cases empty : last = []
  · subst empty
    rfl
  have skips (skipped : lineKind last ≠ .stop ∧ lineKind last ≠ .entry) :
      itemizeFrom memory (fuel + 1) last (itemsWith [] ⟨none, none⟩ total) 0
        (firstLine last) = itemized total ([], .done) := by
    have first : firstLine (last ++ []) = _ := firstLine_skipped skipped (.inl empty)
    rw [List.append_nil, getNextLine_open noNul empty] at first
    rw [first, itemizeFrom_null]
  rw [parseFile, if_neg empty]
  cases kind : lineKind last with
  | blank =>
    rw [skips (by simp [kind]), if_neg (by decide), parseLines, kind]
  | comment =>
    rw [skips (by simp [kind]), if_neg (by decide), parseLines, kind]
  | floating =>
    rw [skips (by simp [kind]), if_pos rfl]
  | stop =>
    obtain ⟨more, rfl⟩ := exists_of_stop kind
    have first := firstLine_line [] (.inl kind) (by decide)
    rw [List.append_nil] at first
    rw [first, if_neg (by decide), parseLines, kind]
    exact itemizeFrom_stop [] more fuel 1 [] total 0
  | entry =>
    obtain ⟨entry, rfl⟩ := exists_of_entry kind
    have first := firstLine_entry entry noNul []
    have leaves : itemizeLoop memory (fuel + 1) entry.text
        (itemsWith [] ⟨none, none⟩ total) 0 (1, .line 0) = .error .outside :=
      itemizeLoop_unterminated memory entry noNul [] total [] fuel 1
    rw [List.append_nil] at first
    rw [first, if_neg (by decide), parseLines, kind, itemizeFrom, Except.bind, leaves]
    rfl

section FirstLine

variable {line last : List UInt8} {lines : List (List UInt8)}

theorem length_joined_cons : lines.length < (joined (line :: lines) last).length := by
  have lineCount := length_le_joined lines last
  simp only [joined, List.length_append, List.length_cons]
  omega

theorem itemizeFrom_skipped (noNul : ∀ other ∈ line :: lines, 0 ∉ other) (noNulLast : 0 ∉ last)
    (skipped : lineKind line ≠ .stop ∧ lineKind line ≠ .entry) :
    itemizeFrom memory ((joined (line :: lines) last).length + 2)
        (joined (line :: lines) last) (itemsWith [] ⟨none, none⟩ (lines.length + 2)) 0
        (firstLine (joined (line :: lines) last)) =
      itemized (lines.length + 2) (parseLines memory.copies last 0 2 lines) := by
  rw [List.forall_mem_cons] at noNul
  have ends : LineEnd (joined (line :: lines) last) 0 1 (joined lines last) :=
    ⟨[], line, rfl, rfl, noNul.1, Nat.one_pos⟩
  have first : firstLine (joined (line :: lines) last) =
      getNextLine (joined (line :: lines) last) ((joined (line :: lines) last).length + 1) 1 0 :=
    firstLine_skipped skipped (.inr rfl)
  have room : ([] : List Entry).length + lines.length < lines.length + 2 := by
    rw [List.length_nil]
    omega
  have enough : lines.length < (joined (line :: lines) last).length := length_joined_cons
  rw [first]
  exact itemize_lines ends noNul.2 noNulLast room (by omega) (by omega) 1

theorem itemizeFrom_firstEntry (entry : EntryText)
    (noNul : ∀ other ∈ entry.text :: lines, 0 ∉ other) (noNulLast : 0 ∉ last) :
    itemizeFrom memory ((joined (entry.text :: lines) last).length + 2)
        (joined (entry.text :: lines) last)
        (itemsWith [] ⟨none, none⟩ (lines.length + 2)) 0
        (firstLine (joined (entry.text :: lines) last)) =
      itemized (lines.length + 2) (parseLines memory.copies last 0 1 (entry.text :: lines)) := by
  rw [List.forall_mem_cons] at noNul
  have first : firstLine (joined (entry.text :: lines) last) = .ok (1, .line 0) :=
    firstLine_entry entry noNul.1 _
  have enough : lines.length < (joined (entry.text :: lines) last).length := length_joined_cons
  have room : ([] : List Entry).length + 1 < lines.length + 2 := by
    rw [List.length_nil]
    omega
  rw [first]
  refine itemizeFrom_entry entry noNul.1 [] last lines room ?_
  intro fbuf val nuls ends
  have shorter := ends.length_lt.2
  have lineCount := length_le_joined lines last
  have moreRoom : ([] ++ [(entry.token, entry.value)] : List Entry).length +
      lines.length < lines.length + 2 := by
    simp
    omega
  exact itemize_lines ends noNul.2 noNulLast moreRoom (by omega) (by omega) 1

end FirstLine

theorem itemize_joined {lines : List (List UInt8)} {last : List UInt8}
    (noNul : ∀ line ∈ lines, 0 ∉ line) (noNulLast : 0 ∉ last)
    (allocated : memory.items = true) :
    itemize memory (joined lines last) =
      itemized (lines.length + 1) (parseFile memory.copies lines last) := by
  have starts : itemize memory (joined lines last) =
      itemizeFrom memory ((joined lines last).length + 2) (joined lines last)
        (itemsWith [] ⟨none, none⟩ (lines.length + 1)) 0
        (firstLine (joined lines last)) := by
    rw [itemize, if_neg (by simp [allocated]), count_joined noNul noNulLast]
    rfl
  rw [starts]
  cases lines with
  | nil => exact itemizeFrom_unterminated noNulLast _ _
  | cons line lines =>
    rw [parseFile, List.length_cons]
    cases kind : lineKind line with
    | blank =>
      rw [itemizeFrom_skipped noNul noNulLast (by simp [kind]), if_neg (by decide),
        parseLines, kind]
    | comment =>
      rw [itemizeFrom_skipped noNul noNulLast (by simp [kind]), if_neg (by decide),
        parseLines, kind]
    | floating =>
      rw [itemizeFrom_skipped noNul noNulLast (by simp [kind]), if_pos rfl]
    | stop =>
      obtain ⟨more, rfl⟩ := exists_of_stop kind
      have first : firstLine (joined ((0xFF :: more) :: lines) last) = _ :=
        firstLine_line _ (.inl kind) (by decide)
      rw [first, if_neg (by decide), parseLines, kind]
      exact itemizeFrom_stop [] _ _ 1 [] _ 0
    | entry =>
      obtain ⟨entry, rfl⟩ := exists_of_entry kind
      rw [if_neg (by decide)]
      exact itemizeFrom_firstEntry entry noNul noNulLast

end Itemize

end MercuryFix
