import MercuryFix.ConfigSafety

/-!
# Files of lines

A file is a list of lines that LF or CR LF ends, and a last line that nothing ends.
In the buffer CR LF makes an empty line behind its own line.
-/

namespace MercuryFix

open ConfigFile

section Files

def Clean (text : List UInt8) : Prop := ∀ byte ∈ text, byte ≠ 0 ∧ byte ≠ 10 ∧ byte ≠ 13

instance (text : List UInt8) : Decidable (Clean text) :=
  List.decidableBAll (fun byte => byte ≠ 0 ∧ byte ≠ 10 ∧ byte ≠ 13) text

structure FileLine where
  text : List UInt8
  crlf : Bool
  clean : Clean text

def FileLine.bytes (line : FileLine) : List UInt8 :=
  line.text ++ if line.crlf then [13, 10] else [10]

def fileBytes (lines : List FileLine) (last : List UInt8) : List UInt8 :=
  lines.flatMap FileLine.bytes ++ last

/-- The lines that the buffer has for a line of the file. -/
def FileLine.segments (line : FileLine) : List (List UInt8) :=
  if line.crlf then [line.text, []] else [line.text]

def segments (lines : List FileLine) : List (List UInt8) := lines.flatMap FileLine.segments

theorem segments_cons (line : FileLine) (lines : List FileLine) :
    segments (line :: lines) = line.segments ++ segments lines :=
  List.flatMap_cons ..

theorem Clean.map_storedByte {text : List UInt8} (clean : Clean text) :
    text.map storedByte = text := by
  have same : text.map storedByte = text.map id := by
    apply List.map_congr_left
    intro byte member
    obtain ⟨-, notLf, notCr⟩ := clean byte member
    exact if_neg (by simp [notLf, notCr])
  rw [same, List.map_id]

theorem Clean.noNul {text : List UInt8} (clean : Clean text) : 0 ∉ text :=
  fun member => (clean 0 member).1 rfl

theorem storedByte_fileBytes (lines : List FileLine) {last : List UInt8} (clean : Clean last) :
    (fileBytes lines last).map storedByte = joined (segments lines) last := by
  induction lines with
  | nil => exact clean.map_storedByte
  | cons line lines induction =>
    have here : (fileBytes (line :: lines) last).map storedByte =
        line.bytes.map storedByte ++ (fileBytes lines last).map storedByte := by
      simp [fileBytes]
    rw [here, induction, FileLine.bytes, List.map_append, line.clean.map_storedByte,
      segments_cons, FileLine.segments]
    cases line.crlf with
    | false => simp [joined, storedByte]
    | true => simp [joined, storedByte]

theorem noNul_segments (lines : List FileLine) : ∀ text ∈ segments lines, 0 ∉ text := by
  intro text member
  obtain ⟨line, -, member⟩ := List.mem_flatMap.mp member
  rw [FileLine.segments] at member
  split at member
  · rcases List.mem_pair.mp member with rfl | rfl
    · exact line.clean.noNul
    · simp
  · obtain rfl := List.mem_singleton.mp member
    exact line.clean.noNul

theorem itemize_fileBytes {memory : ConfigMemory} (allocated : memory.items = true)
    (lines : List FileLine) {last : List UInt8} (clean : Clean last) :
    itemize memory ((fileBytes lines last).map storedByte) =
      itemized ((segments lines).length + 1) (parseFile memory.copies (segments lines) last) := by
  rw [storedByte_fileBytes lines clean]
  exact itemize_joined (noNul_segments lines) clean.noNul allocated

theorem entriesOf_segments (lines : List FileLine) :
    entriesOf (segments lines) = entriesOf (lines.map FileLine.text) := by
  induction lines with
  | nil => rfl
  | cons line lines induction =>
    rw [segments_cons, FileLine.segments, List.map_cons, entriesOf_cons]
    cases line.crlf with
    | false =>
      rw [if_neg (by decide), List.singleton_append, entriesOf_cons, induction]
    | true =>
      rw [if_pos rfl, List.cons_append, List.singleton_append, entriesOf_cons,
        entriesOf_cons, induction]
      rfl

theorem trailCount_segments (lines : List FileLine) :
    trailCount (segments lines) = trailCount (lines.map FileLine.text) := by
  induction lines with
  | nil => rfl
  | cons line lines induction =>
    rw [segments_cons, FileLine.segments, List.map_cons, trailCount]
    cases line.crlf with
    | false =>
      rw [if_neg (by decide), List.singleton_append, trailCount, induction]
    | true =>
      rw [if_pos rfl, List.cons_append, List.singleton_append, trailCount,
        trailCount, induction, show lineKind [] = .blank from rfl,
        if_neg (by decide : LineKind.blank ≠ .entry), Nat.zero_add]

theorem length_segments (lines : List FileLine) :
    (segments lines).length = lines.length + lines.countP FileLine.crlf := by
  induction lines with
  | nil => rfl
  | cons line lines induction =>
    rw [segments_cons, FileLine.segments, List.length_append, induction,
      List.countP_cons, List.length_cons]
    cases line.crlf with
    | false => simp; omega
    | true => simp; omega

theorem forall_mem_segments {property : List UInt8 → Prop} (empty : property [])
    (lines : List FileLine) :
    (∀ text ∈ segments lines, property text) ↔ ∀ line ∈ lines, property line.text := by
  induction lines with
  | nil => simp [segments]
  | cons line lines induction =>
    rw [segments_cons, List.forall_mem_append, List.forall_mem_cons, induction, FileLine.segments]
    cases line.crlf with
    | false => simp
    | true => simp [empty]

end Files

section Loading

structure ReadAttempt.Reads (attempt : ReadAttempt) (bytes : List UInt8) : Prop where
  nameAllocated : attempt.nameAllocated = true
  ready : attempt.ready = .found
  content : attempt.content = some bytes
  small : bytes.length ≤ maxConfigFileSize
  bufferAllocated : attempt.bufferAllocated = true
  opened : attempt.opened = true
  noError : attempt.readError = false

theorem ReadAttempt.Reads.readConf {attempt : ReadAttempt} {bytes : List UInt8}
    (reads : attempt.Reads bytes) :
    readConf attempt = .ok (bytes.map storedByte) := by
  simp [MercuryFix.readConf, reads.nameAllocated, reads.ready, reads.content,
    Nat.not_lt.mpr reads.small, reads.bufferAllocated, reads.opened, reads.noError]

/-- Empty, whitespace only, a comment, or a token with an optional value. -/
def FileLine.WellFormed (line : FileLine) : Prop :=
  (∀ byte ∈ line.text, wspace byte = true) ∨
    (∃ text, line.text = commentChar :: text) ∨
    ∃ entry : EntryText, line.text = entry.text

theorem FileLine.WellFormed.clear {line : FileLine} (wellFormed : line.WellFormed) :
    Clear line.text := by
  rcases wellFormed with blank | ⟨text, comment⟩ | ⟨entry, same⟩
  · have kind : lineKind line.text = .blank := by
      cases text : line.text with
      | nil => rfl
      | cons first rest =>
        rw [text, List.forall_mem_cons] at blank
        rw [lineKind, if_pos blank.1, if_pos (List.all_eq_true.mpr blank.2)]
    simp [Clear, kind]
  · have kind : lineKind line.text = .comment := by
      rw [comment]
      rfl
    simp [Clear, kind]
  · simp [Clear, same, entry.lineKind_text]

theorem parseFile_clear {copies : Nat → Bool × Bool} {lines : List (List UInt8)}
    (present : lines ≠ []) (clear : ∀ line ∈ lines, Clear line)
    (copied : Copied copies 0 (entriesOf lines).length) :
    parseFile copies lines [] = (entriesOf lines, .done) := by
  have parses := parseLines_append clear copied [] 1 []
  rw [List.append_nil] at parses
  cases lines with
  | nil => exact absurd rfl present
  | cons line lines =>
    rw [parseFile, if_neg (clear line (List.mem_cons_self ..)).1, parses]
    simp [goingOn, parseLines, lineKind]

def fileValue (lines : List FileLine) (token : List UInt8) : Option (List UInt8) :=
  firstValue (entriesOf (lines.map FileLine.text)) token

theorem load_of_reads {context : LoadContext} {state : ConfigFile}
    (valid : state.Valid) (locked : context.locked = true) {attempt : ReadAttempt}
    (first : context.attempts.head? = some attempt) {bytes : List UInt8}
    (reads : attempt.Reads bytes) (source : List UInt8) :
    load context state (some source) =
      (itemize context.memory (bytes.map storedByte)).bind fun result =>
        .ok (result.1, ⟨result.2, attempt.storedName⟩) := by
  obtain ⟨attempts, all⟩ : ∃ attempts, context.attempts = attempt :: attempts := by
    cases shape : context.attempts with
    | nil => simp [shape] at first
    | cons other attempts => exact ⟨attempts, by simpa [shape] using first⟩
  rw [load, if_neg (by simp [locked]), valid.clearItems, all]
  dsimp only [bind, Except.bind]
  rw [readAndItemize, reads.readConf]
  rfl

/-- A well-formed file is loaded, and its values are the ones of its lines. -/
theorem load_wellFormed (context : LoadContext) (state : ConfigFile)
    (reachable : state.Reachable) (source : List UInt8) (lines : List FileLine)
    (present : lines ≠ []) (wellFormed : ∀ line ∈ lines, line.WellFormed)
    (locked : context.locked = true) (attempt : ReadAttempt)
    (first : context.attempts.head? = some attempt)
    (reads : attempt.Reads (fileBytes lines []))
    (items : context.memory.items = true)
    (copies : ∀ item, context.memory.copies item = (true, true)) :
    ∃ state', load context state (some source) = .ok (0, state') ∧
      ∀ token, getValue true true state' token = .ok (fileValue lines token) := by
  have clear : ∀ text ∈ segments lines, Clear text :=
    (forall_mem_segments (by simp [Clear, lineKind]) lines).mpr fun line member =>
      (wellFormed line member).clear
  have some_segment : segments lines ≠ [] := by
    intro none
    have length := length_segments lines
    rw [none, List.length_nil] at length
    exact present (List.eq_nil_of_length_eq_zero (by omega))
  have parses : parseFile context.memory.copies (segments lines) [] =
      (entriesOf (lines.map FileLine.text), .done) := by
    rw [parseFile_clear some_segment clear fun item _ => copies _, entriesOf_segments]
  rw [load_of_reads reachable.valid locked first reads,
    itemize_fileBytes items lines (by simp [Clean]), parses]
  refine ⟨_, rfl, fun token => ?_⟩
  rw [getValue]
  dsimp only
  rw [if_neg (by decide), findValue_itemsWith]
  rfl

def exampleFile : List FileLine :=
  [⟨[97, 9, 98, 32], true, by decide⟩, ⟨[35, 32, 99], false, by decide⟩, ⟨[], false, by decide⟩]

theorem load_wellFormed_example :
    (∀ line ∈ exampleFile, line.WellFormed) ∧
    ∃ state', load ⟨true, [⟨true, .found, some (fileBytes exampleFile []), true, true,
        false, none⟩], ⟨true, fun _ => (true, true)⟩⟩ ⟨none, none⟩ (some [102]) =
        .ok (0, state') ∧
      ∀ token, getValue true true state' token =
        .ok (fileValue exampleFile token) := by
  have wellFormed : ∀ line ∈ exampleFile, line.WellFormed := by
    simp only [exampleFile, List.mem_cons, List.not_mem_nil, or_false, forall_eq_or_imp, forall_eq]
    refine ⟨.inr (.inr ?_), .inr (.inl ⟨[32, 99], rfl⟩), .inl (by simp)⟩
    exact ⟨⟨[97], [9], [98], [32], by simp, by simp [commentChar], by simp [wspace],
      by simp [wspace], by simp [wspace], by simp [wspace], by simp [wspace], by simp,
      by simp⟩, rfl⟩
  exact ⟨wellFormed, load_wellFormed _ ⟨none, none⟩ .new [102] exampleFile (by decide)
    wellFormed rfl _ rfl ⟨rfl, rfl, rfl, by decide, rfl, rfl, rfl⟩ rfl fun _ => rfl⟩

end Loading

end MercuryFix
