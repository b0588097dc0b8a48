import MercuryFix.ConfigFiles
import Mathlib.Data.List.DropRight

/-!
# Lines of a configuration file

The buffer as the lines that its terminators end, and a last one without a
terminator.  `parseFile` says what `itemize` makes of the lines, without a buffer.
-/

namespace MercuryFix

section Kinds

inductive LineKind
  | blank
  | comment
  | floating
  | stop
  | entry
  deriving DecidableEq

def lineKind : List UInt8 → LineKind
  | [] => .blank
  | first :: rest =>
    if wspace first then if rest.all wspace then .blank else .floating
    else if first = commentChar then .comment
    else if first = 0xFF then .stop
    else .entry

structure EntryText where
  token : List UInt8
  gap : List UInt8
  value : List UInt8
  trail : List UInt8
  token_ne_nil : token ≠ []
  token_first : ∀ byte ∈ token.head?, byte ≠ commentChar ∧ byte ≠ 0xFF
  token_plain : ∀ byte ∈ token, wspace byte = false
  gap_blank : ∀ byte ∈ gap, wspace byte = true
  value_first : ∀ byte ∈ value.head?, wspace byte = false
  value_last : ∀ byte ∈ value.getLast?, wspace byte = false
  trail_blank : ∀ byte ∈ trail, wspace byte = true
  gap_of_value : value ≠ [] → gap ≠ []
  value_of_trail : trail ≠ [] → value ≠ []

namespace EntryText

def text (entry : EntryText) : List UInt8 :=
  entry.token ++ (entry.gap ++ (entry.value ++ entry.trail))

theorem trail_eq_nil {entry : EntryText} (value : entry.value = []) : entry.trail = [] := by
  by_contra present
  exact entry.value_of_trail present value

theorem value_eq_nil {entry : EntryText} (gap : entry.gap = []) : entry.value = [] := by
  by_contra present
  exact entry.gap_of_value present gap

theorem rest_first (entry : EntryText) :
    ∀ byte ∈ (entry.value ++ entry.trail).head?, wspace byte = false := by
  intro byte
  cases value : entry.value with
  | nil => simp [trail_eq_nil value]
  | cons first rest =>
    have plain := entry.value_first first (by simp [value])
    rintro ⟨⟩
    exact plain

end EntryText

def entryToken (line : List UInt8) : List UInt8 := line.takeWhile fun byte => !wspace byte

/-- A line behind its token and the whitespace there. -/
def entryRest (line : List UInt8) : List UInt8 :=
  (line.dropWhile fun byte => !wspace byte).dropWhile wspace

def entryValue (line : List UInt8) : List UInt8 := (entryRest line).rdropWhile wspace

def entryTrail (line : List UInt8) : List UInt8 := (entryRest line).rtakeWhile wspace

theorem lineKind_cons_plain {first : UInt8} {rest : List UInt8} (plain : wspace first = false) :
    lineKind (first :: rest) = if first = commentChar then .comment
      else if first = 0xFF then .stop else .entry := by
  rw [lineKind, if_neg (by simp [plain])]

variable {line : List UInt8}

theorem all_wspace_of_blank (blank : lineKind line = .blank) :
    ∀ byte ∈ line, wspace byte = true := by
  cases line with
  | nil => simp
  | cons first rest =>
    rw [lineKind] at blank
    split_ifs at blank with white all
    rw [List.all_eq_true] at all
    exact List.forall_mem_cons.mpr ⟨white, all⟩

theorem exists_of_floating (floating : lineKind line = .floating) :
    ∃ front byte rest, line = front ++ byte :: rest ∧ front ≠ [] ∧
      (∀ byte ∈ front, wspace byte = true) ∧ wspace byte = false := by
  cases line with
  | nil => cases floating
  | cons first rest =>
    rw [lineKind] at floating
    split_ifs at floating with white all
    have split := List.takeWhile_append_dropWhile (p := wspace) (l := rest)
    cases behind : rest.dropWhile wspace with
    | nil =>
      rw [List.dropWhile_eq_nil_iff] at behind
      exact absurd (List.all_eq_true.mpr behind) all
    | cons byte more =>
      rw [behind] at split
      refine ⟨first :: rest.takeWhile wspace, byte, more, ?_, by simp, ?_, ?_⟩
      · rw [List.cons_append, split]
      · rw [List.forall_mem_cons]
        exact ⟨white, fun byte member => List.mem_takeWhile_imp member⟩
      · have stops := List.head?_dropWhile_not wspace rest
        rw [behind] at stops
        simpa using stops

theorem exists_of_comment (comment : lineKind line = .comment) :
    ∃ rest, line = commentChar :: rest := by
  cases line with
  | nil => cases comment
  | cons first rest =>
    rw [lineKind] at comment
    split_ifs at comment with white all number
    exact ⟨rest, by rw [number]⟩

theorem exists_of_stop (stop : lineKind line = .stop) : ∃ rest, line = 0xFF :: rest := by
  cases line with
  | nil => cases stop
  | cons first rest =>
    rw [lineKind] at stop
    split_ifs at stop with white all number eof
    exact ⟨rest, by rw [eof]⟩

theorem head?_dropWhile_false {keep : UInt8 → Bool} (text : List UInt8) :
    ∀ byte ∈ (text.dropWhile keep).head?, keep byte = false := by
  intro byte first
  have stops := List.head?_dropWhile_not keep text
  rw [Option.mem_def.mp first] at stops
  simpa using stops

theorem exists_of_entry (isEntry : lineKind line = .entry) :
    ∃ entry : EntryText, entry.text = line := by
  obtain ⟨first, rest, rfl⟩ : ∃ first rest, line = first :: rest := by
    cases line with
    | nil => cases isEntry
    | cons first rest => exact ⟨first, rest, rfl⟩
  rw [lineKind] at isEntry
  split_ifs at isEntry with white all number eof
  let behind := (first :: rest).dropWhile fun byte => !wspace byte
  have behindFirst : ∀ byte ∈ behind.head?, wspace byte = true := fun byte member => by
    simpa using head?_dropWhile_false _ byte member
  let body := behind.dropWhile wspace
  have bodyFirst : ∀ byte ∈ body.head?, wspace byte = false := head?_dropWhile_false behind
  have body_nil (blank : ∀ byte ∈ body, wspace byte = true) : body = [] := by
    cases shape : body with
    | nil => rfl
    | cons byte more =>
      have plain := bodyFirst byte (by rw [shape]; rfl)
      rw [blank byte (by simp [shape])] at plain
      cases plain
  refine ⟨⟨(first :: rest).takeWhile fun byte => !wspace byte,
    behind.takeWhile wspace, body.rdropWhile wspace, body.rtakeWhile wspace,
    by simp [white], by simp [white, number, eof], ?_, ?_, ?_, ?_, ?_, ?_, ?_⟩, ?_⟩
  · intro byte member
    simpa using List.mem_takeWhile_imp member
  · exact fun byte member => List.mem_takeWhile_imp member
  · intro byte member
    obtain ⟨more, split⟩ := body.rdropWhile_prefix wspace
    refine bodyFirst byte ?_
    rw [← split, List.head?_append, Option.mem_def.mp member]
    rfl
  · intro byte member
    obtain ⟨present, rfl⟩ := List.mem_getLast?_eq_getLast member
    simpa using List.rdropWhile_last_not wspace body present
  · exact fun byte member => List.mem_rtakeWhile_imp member
  · intro value gap
    rw [List.takeWhile_eq_nil_iff] at gap
    cases shape : behind with
    | nil => exact value (by simp [body, shape])
    | cons byte more =>
      exact gap (by simp [shape]) (by simpa [shape] using behindFirst)
  · intro trail value
    rw [List.rdropWhile_eq_nil_iff] at value
    exact trail (by rw [body_nil value]; rfl)
  · rw [EntryText.text]
    dsimp only
    rw [List.rdropWhile_append_rtakeWhile, List.takeWhile_append_dropWhile,
      List.takeWhile_append_dropWhile]

namespace EntryText

variable (entry : EntryText)

theorem behind_first :
    ∀ byte ∈ (entry.gap ++ (entry.value ++ entry.trail)).head?, wspace byte = true := by
  intro byte
  cases gap : entry.gap with
  | nil =>
    have value := value_eq_nil gap
    simp [value, trail_eq_nil value]
  | cons first rest =>
    have blank := entry.gap_blank first (by simp [gap])
    rintro ⟨⟩
    exact blank

theorem lineKind_text : lineKind entry.text = .entry := by
  have first := entry.token_first
  cases token : entry.token with
  | nil => exact absurd token entry.token_ne_nil
  | cons byte rest =>
    rw [token] at first
    have plain := entry.token_plain byte (by simp [token])
    rw [text, token, List.cons_append, lineKind_cons_plain plain,
      if_neg (first byte rfl).1, if_neg (first byte rfl).2]

theorem entryToken_text : entryToken entry.text = entry.token := by
  refine (ByteBlock.takeWhile_dropWhile_append ?_ ?_).1
  · intro byte member
    simp [entry.token_plain byte member]
  · intro byte member
    simp [entry.behind_first byte member]

theorem entryRest_text : entryRest entry.text = entry.value ++ entry.trail := by
  have token : entry.text.dropWhile (fun byte => !wspace byte) =
      entry.gap ++ (entry.value ++ entry.trail) := by
    refine (ByteBlock.takeWhile_dropWhile_append ?_ ?_).2
    · intro byte member
      simp [entry.token_plain byte member]
    · intro byte member
      simp [entry.behind_first byte member]
  rw [entryRest, token]
  exact (ByteBlock.takeWhile_dropWhile_append entry.gap_blank entry.rest_first).2

theorem reverse_rest : (entry.value ++ entry.trail).reverse.takeWhile wspace = entry.trail.reverse ∧
      (entry.value ++ entry.trail).reverse.dropWhile wspace = entry.value.reverse := by
  rw [List.reverse_append]
  apply ByteBlock.takeWhile_dropWhile_append
  · intro byte member
    exact entry.trail_blank byte (List.mem_reverse.mp member)
  · rw [List.head?_reverse]
    exact entry.value_last

theorem entryValue_text : entryValue entry.text = entry.value := by
  rw [entryValue, entryRest_text, List.rdropWhile, entry.reverse_rest.2, List.reverse_reverse]

theorem entryTrail_text : entryTrail entry.text = entry.trail := by
  rw [entryTrail, entryRest_text, List.rtakeWhile, entry.reverse_rest.1, List.reverse_reverse]

end EntryText

end Kinds

section Lines

def joined (lines : List (List UInt8)) (last : List UInt8) : List UInt8 :=
  match lines with
  | [] => last
  | line :: lines => line ++ 0 :: joined lines last

def splitLines : List UInt8 → List (List UInt8) × List UInt8
  | [] => ([], [])
  | byte :: rest =>
    if byte = 0 then ([] :: (splitLines rest).1, (splitLines rest).2)
    else
      match (splitLines rest).1 with
      | [] => ([], byte :: (splitLines rest).2)
      | line :: lines => ((byte :: line) :: lines, (splitLines rest).2)

theorem joined_splitLines (fbuf : List UInt8) :
    joined (splitLines fbuf).1 (splitLines fbuf).2 = fbuf := by
  induction fbuf with
  | nil => rfl
  | cons byte rest induction =>
    rw [splitLines]
    by_cases zero : byte = 0
    · rw [if_pos zero, zero, joined, List.nil_append, induction]
    · rw [if_neg zero]
      cases lines : (splitLines rest).1 with
      | nil =>
        rw [lines, joined] at induction
        rw [joined, induction]
      | cons line lines =>
        rw [lines, joined] at induction
        rw [joined, List.cons_append, induction]

theorem noNul_splitLines (fbuf : List UInt8) :
    (∀ line ∈ (splitLines fbuf).1, 0 ∉ line) ∧ 0 ∉ (splitLines fbuf).2 := by
  induction fbuf with
  | nil => exact ⟨by simp [splitLines], by simp [splitLines]⟩
  | cons byte rest induction =>
    rw [splitLines]
    by_cases zero : byte = 0
    · rw [if_pos zero]
      exact ⟨List.forall_mem_cons.mpr ⟨by simp, induction.1⟩, induction.2⟩
    · rw [if_neg zero]
      cases lines : (splitLines rest).1 with
      | nil => exact ⟨by simp, by simp [Ne.symm zero, induction.2]⟩
      | cons line lines =>
        rw [lines, List.forall_mem_cons] at induction
        refine ⟨List.forall_mem_cons.mpr ⟨?_, induction.1.2⟩, induction.2⟩
        simp [Ne.symm zero, induction.1.1]

theorem count_joined {lines : List (List UInt8)} {last : List UInt8}
    (noNul : ∀ line ∈ lines, 0 ∉ line) (noNulLast : 0 ∉ last) :
    (joined lines last).count 0 = lines.length := by
  induction lines with
  | nil => exact List.count_eq_zero.mpr noNulLast
  | cons line lines induction =>
    rw [List.forall_mem_cons] at noNul
    rw [joined, List.count_append, List.count_cons_self, induction noNul.2,
      List.count_eq_zero.mpr noNul.1, List.length_cons, Nat.zero_add]

theorem length_le_joined (lines : List (List UInt8)) (last : List UInt8) :
    lines.length ≤ (joined lines last).length := by
  induction lines with
  | nil => exact Nat.zero_le _
  | cons line lines induction =>
    simp only [joined, List.length_cons, List.length_append]
    omega

end Lines

section Parsing

/-- How the work on the lines ends: regularly, at floating text, without memory,
with a `free` of a pointer into the buffer, or outside of the buffer. -/
inductive ParseEnd
  | done
  | floating (lnum : Nat)
  | noMemory
  | invalidFree
  | outside
  deriving DecidableEq

abbrev Entry := List UInt8 × List UInt8

/-- The entries of lines, with this number of entries and this line number in front
of them.  The whitespace behind a value counts as lines. -/
def parseLines (copies : Nat → Bool × Bool) (last : List UInt8) :
    Nat → Nat → List (List UInt8) → List Entry × ParseEnd
  | _, lnum, [] =>
    match lineKind last with
    | .blank | .comment | .stop => ([], .done)
    | .floating => ([], .floating lnum)
    | .entry => ([], .outside)
  | count, lnum, line :: lines =>
    match lineKind line with
    | .blank | .comment => parseLines copies last count (lnum + 1) lines
    | .floating => ([], .floating lnum)
    | .stop => ([], .done)
    | .entry =>
      if (copies count).1 = false then ([], .invalidFree)
      else if (copies count).2 = false then ([], .noMemory)
      else
        let parsed := parseLines copies last (count + 1)
          (lnum + ((entryTrail line).length + 1)) lines
        ((entryToken line, entryValue line) :: parsed.1, parsed.2)

/-- The entries of a file.  Floating text in the first line is skipped. -/
def parseFile (copies : Nat → Bool × Bool) (lines : List (List UInt8))
    (last : List UInt8) : List Entry × ParseEnd :=
  match lines with
  | [] =>
    if last = [] then ([], .outside)
    else if lineKind last = .floating then ([], .done)
    else parseLines copies last 0 1 []
  | line :: lines =>
    if lineKind line = .floating then parseLines copies last 0 2 lines
    else parseLines copies last 0 1 (line :: lines)

def goingOn (copied : List Entry) (parsed : List Entry × ParseEnd) :
    List Entry × ParseEnd :=
  (copied ++ parsed.1, parsed.2)

def entriesOf (lines : List (List UInt8)) : List Entry :=
  lines.filterMap fun line =>
    if lineKind line = .entry then some (entryToken line, entryValue line) else none

def trailCount : List (List UInt8) → Nat
  | [] => 0
  | line :: lines =>
    (if lineKind line = .entry then (entryTrail line).length else 0) + trailCount lines

def Clear (line : List UInt8) : Prop := lineKind line ≠ .floating ∧ lineKind line ≠ .stop

def Copied (copies : Nat → Bool × Bool) (count items : Nat) : Prop :=
  ∀ item < items, copies (count + item) = (true, true)

variable {copies : Nat → Bool × Bool}

theorem Copied.tail {count items : Nat} (copied : Copied copies count (items + 1)) :
    Copied copies (count + 1) items := by
  intro item less
  rw [Nat.add_assoc, Nat.add_comm 1 item]
  exact copied (item + 1) (Nat.succ_lt_succ less)

theorem Copied.cons {count items : Nat} (first : copies count = (true, true))
    (copied : Copied copies (count + 1) items) : Copied copies count (items + 1) := by
  intro item less
  cases item with
  | zero => exact first
  | succ item =>
    rw [Nat.add_comm item 1, ← Nat.add_assoc]
    exact copied item (Nat.lt_of_succ_lt_succ less)

theorem entriesOf_cons (line : List UInt8) (lines : List (List UInt8)) : entriesOf (line :: lines) =
      if lineKind line = .entry then
        (entryToken line, entryValue line) :: entriesOf lines
      else entriesOf lines := by
  rw [entriesOf, List.filterMap_cons]
  split_ifs <;> rfl

theorem parseLines_append {front : List (List UInt8)} {count : Nat}
    (clear : ∀ line ∈ front, Clear line)
    (copied : Copied copies count (entriesOf front).length) (last : List UInt8)
    (lnum : Nat) (rest : List (List UInt8)) :
    parseLines copies last count lnum (front ++ rest) =
      goingOn (entriesOf front) (parseLines copies last (count + (entriesOf front).length)
        (lnum + (front.length + trailCount front)) rest) := by
  induction front generalizing count lnum with
  | nil => rfl
  | cons line front induction =>
    rw [List.forall_mem_cons] at clear
    rw [entriesOf_cons] at copied
    rw [List.cons_append, parseLines, entriesOf_cons, trailCount, List.length_cons]
    have skips (copied : Copied copies count (entriesOf front).length) :
        parseLines copies last count (lnum + 1) (front ++ rest) =
          goingOn (entriesOf front) (parseLines copies last (count + (entriesOf front).length)
            (lnum + (front.length + 1 + (0 + trailCount front))) rest) := by
      rw [induction clear.2 copied]
      congr 2
      omega
    cases kind : lineKind line with
    | floating => exact absurd kind clear.1.1
    | stop => exact absurd kind clear.1.2
    | blank =>
      rw [kind] at copied
      exact skips copied
    | comment =>
      rw [kind] at copied
      exact skips copied
    | entry =>
      rw [kind, if_pos rfl, List.length_cons] at copied
      have first : copies count = (true, true) := copied 0 (Nat.succ_pos _)
      have behind := induction clear.2 copied.tail (lnum + ((entryTrail line).length + 1))
      simp only [first, if_pos, List.length_cons]
      rw [if_neg (by decide), if_neg (by decide), behind]
      have counts : count + 1 + (entriesOf front).length =
          count + ((entriesOf front).length + 1) := by
        omega
      have numbers : lnum + ((entryTrail line).length + 1) + (front.length + trailCount front) =
            lnum + (front.length + 1 + ((entryTrail line).length + trailCount front)) := by
        omega
      rw [counts, numbers]
      rfl

/-- The line, with this number of entries in front of it, ends the work. -/
def EndsWork (copies : Nat → Bool × Bool) (count : Nat) (line : List UInt8) : Prop :=
  ¬ Clear line ∨ lineKind line = .entry ∧ copies count ≠ (true, true)

theorem exists_clear_front (count : Nat) (lines : List (List UInt8)) :
    ∃ front back, lines = front ++ back ∧ (∀ line ∈ front, Clear line) ∧
      Copied copies count (entriesOf front).length ∧
      (back = [] ∨ ∃ line more, back = line :: more ∧
        EndsWork copies (count + (entriesOf front).length) line) := by
  induction lines generalizing count with
  | nil => exact ⟨[], [], rfl, by simp, by simp [Copied, entriesOf], .inl rfl⟩
  | cons line lines induction =>
    by_cases stops : EndsWork copies count line
    · exact ⟨[], line :: lines, rfl, by simp, by simp [Copied, entriesOf],
        .inr ⟨line, lines, rfl, stops⟩⟩
    obtain ⟨clear, copies⟩ := not_or.mp stops
    rw [not_not] at clear
    by_cases entry : lineKind line = .entry
    · have first := not_not.mp (not_and.mp copies entry)
      obtain ⟨front, back, split, clears, copied, ends⟩ := induction (count + 1)
      have entries : (entriesOf (line :: front)).length = (entriesOf front).length + 1 := by
        rw [entriesOf_cons, if_pos entry, List.length_cons]
      refine ⟨line :: front, back, by rw [split, List.cons_append],
        List.forall_mem_cons.mpr ⟨clear, clears⟩, ?_, ?_⟩
      · rw [entries]
        exact .cons first copied
      · rwa [entries, Nat.add_comm _ 1, ← Nat.add_assoc]
    · obtain ⟨front, back, split, clears, copied, ends⟩ := induction count
      have entries : entriesOf (line :: front) = entriesOf front := by
        rw [entriesOf_cons, if_neg entry]
      refine ⟨line :: front, back, by rw [split, List.cons_append],
        List.forall_mem_cons.mpr ⟨clear, clears⟩, ?_, ?_⟩
      · rwa [entries]
      · rwa [entries]

theorem parseLines_stopped {count : Nat} {line : List UInt8}
    (stops : EndsWork copies count line) (last : List UInt8) (lnum : Nat)
    (lines : List (List UInt8)) :
    (parseLines copies last count lnum (line :: lines)).2 ≠ .outside ∧
      ∀ number, (parseLines copies last count lnum (line :: lines)).2 =
        .floating number → lineKind line = .floating ∧ number = lnum := by
  rw [EndsWork] at stops
  rw [parseLines]
  cases kind : lineKind line with
  | blank => simp [Clear, kind] at stops
  | comment => simp [Clear, kind] at stops
  | stop => simp
  | floating => simp [eq_comm]
  | entry =>
    have uncopied : copies count ≠ (true, true) := by
      simpa [Clear, kind] using stops
    dsimp only
    split_ifs with token value
    · simp
    · simp
    · exact absurd (Prod.ext (by simpa using token) (by simpa using value)) uncopied

theorem parseLines_nil (last : List UInt8) (count lnum : Nat) :
    (parseLines copies last count lnum []).2 = match lineKind last with
      | .floating => .floating lnum
      | .entry => .outside
      | .blank | .comment | .stop => .done := by
  rw [parseLines]
  cases lineKind last <;> rfl

theorem parseLines_floating_iff (last : List UInt8) (count lnum number : Nat)
    (lines : List (List UInt8)) :
    (parseLines copies last count lnum lines).2 = .floating number ↔
      ∃ front line back, lines ++ [last] = front ++ line :: back ∧ (∀ line ∈ front, Clear line) ∧
        Copied copies count (entriesOf front).length ∧
        lineKind line = .floating ∧
        number = lnum + (front.length + trailCount front) := by
  constructor
  · obtain ⟨front, back, rfl, clear, copied, ends⟩ := exists_clear_front count lines
    rw [parseLines_append clear copied, goingOn]
    rcases ends with rfl | ⟨line, more, rfl, stops⟩
    · rw [parseLines_nil, List.append_nil]
      intro floating
      cases kind : lineKind last <;> simp [kind] at floating
      exact ⟨front, last, [], rfl, clear, copied, kind, floating.symm⟩
    · intro floating
      obtain ⟨kind, same⟩ := (parseLines_stopped stops last _ more).2 number floating
      exact ⟨front, line, more ++ [last], by simp, clear, copied, kind, same⟩
  · rintro ⟨front, line, back, split, clear, copied, kind, rfl⟩
    rcases List.eq_nil_or_concat back with rfl | ⟨more, final, rfl⟩
    · obtain ⟨rfl, same⟩ := List.append_inj' split rfl
      obtain rfl : last = line := by simpa using same
      have all := parseLines_append clear copied last lnum []
      rw [List.append_nil] at all
      rw [all, goingOn, parseLines_nil, kind]
    · rw [List.concat_eq_append, ← List.cons_append, ← List.append_assoc] at split
      obtain ⟨rfl, -⟩ := List.append_inj' split rfl
      rw [parseLines_append clear copied, goingOn, parseLines, kind]

end Parsing

end MercuryFix
