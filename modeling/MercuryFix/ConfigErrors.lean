import MercuryFix.ConfigSyntax

/-!
# Syntax errors of a configuration file

The number of a line is one more than the number of terminators that
`get_next_line` has passed.  So a line that CR LF ends counts twice, and so does
each byte of the whitespace behind a value.  Floating text in the first line and
behind a line that begins with 0xFF is not found at all.
-/

namespace MercuryFix

open ConfigFile

section Reading

def fileRead : List ReadAttempt → Option (List UInt8)
  | [] => none
  | attempt :: attempts =>
    match readConf attempt with
    | .again => fileRead attempts
    | .error => none
    | .ok fbuf => some fbuf

theorem readConf_content {attempt : ReadAttempt} {fbuf bytes : List UInt8}
    (reads : readConf attempt = .ok fbuf) (content : attempt.content = some bytes) :
    fbuf = bytes.map storedByte := by
  rw [readConf, content] at reads
  split at reads
  · cases reads
  · split at reads
    · cases reads
    · cases reads
    · dsimp only at reads
      split_ifs at reads
      cases reads
      rfl

theorem fileRead_content {attempts : List ReadAttempt} {bytes fbuf : List UInt8}
    (file : ∀ attempt ∈ attempts, attempt.content = some bytes)
    (reads : fileRead attempts = some fbuf) : fbuf = bytes.map storedByte := by
  induction attempts with
  | nil => cases reads
  | cons attempt attempts induction =>
    rw [List.forall_mem_cons] at file
    rw [fileRead] at reads
    split at reads
    · exact induction file.2 reads
    · cases reads
    · rename_i here
      cases reads
      exact readConf_content here file.1

theorem readAndItemize_iff {memory : ConfigMemory} (state : ConfigFile)
    (attempts : List ReadAttempt) {retv : Int} (positive : 0 < retv) :
    (∃ state', readAndItemize memory state attempts = .ok (retv, state')) ↔
      ∃ fbuf items, fileRead attempts = some fbuf ∧ itemize memory fbuf = .ok (retv, items) := by
  induction attempts with
  | nil => simp [readAndItemize, fileRead]
  | cons attempt attempts induction =>
    rw [readAndItemize, fileRead]
    cases readConf attempt with
    | again => exact induction
    | error =>
      have notNegative : (-1 : Int) ≠ retv := by omega
      simp [notNegative]
    | ok fbuf =>
      dsimp only
      cases itemizes : itemize memory fbuf with
      | error fault => simp [bind, Except.bind, itemizes]
      | ok result => simp [bind, Except.bind, itemizes, Prod.ext_iff]

theorem itemized_floating_iff (total : Nat) (parsed : List Entry × ParseEnd)
    {number : Nat} (positive : 0 < number) :
    (∃ items, itemized total parsed = .ok ((number : Int), items)) ↔
      parsed.2 = .floating number := by
  obtain ⟨entries, ending⟩ := parsed
  have notZero : (0 : Int) ≠ number := by omega
  have notNegative : (-1 : Int) ≠ number := by omega
  cases ending <;> simp [itemized, notZero, notNegative, Int.natCast_inj]

variable {context : LoadContext} {state : ConfigFile} {lines : List FileLine}
  {last : List UInt8}

theorem load_positive_iff (valid : state.Valid) (clean : Clean last)
    (file : ∀ attempt ∈ context.attempts, attempt.content = some (fileBytes lines last))
    (source : List UInt8) {number : Nat} (positive : 0 < number) :
    (∃ state', load context state (some source) = .ok ((number : Int), state')) ↔
      context.locked = true ∧ (fileRead context.attempts).isSome = true ∧
        context.memory.items = true ∧
        (parseFile context.memory.copies (segments lines) last).2 = .floating number := by
  have notNegative : (-1 : Int) ≠ number := by omega
  rw [load]
  by_cases locked : context.locked = false
  · simp [locked, notNegative]
  rw [if_neg locked, valid.clearItems]
  dsimp only [bind, Except.bind]
  rw [readAndItemize_iff _ _ (by omega : (0 : Int) < number),
    ← itemized_floating_iff ((segments lines).length + 1) _ positive]
  cases reads : fileRead context.attempts with
  | none => simp
  | some fbuf =>
    obtain rfl := fileRead_content file reads
    by_cases allocated : context.memory.items = true
    · simp [locked, allocated, itemize_fileBytes allocated lines clean]
    · simp [allocated, itemize, notNegative]

end Reading

section Floating

/-- The number of the first line that begins with whitespace and has more. -/
def FirstFloating (texts : List (List UInt8)) (number : Nat) : Prop :=
  ∃ front text back, texts = front ++ text :: back ∧ number = front.length + 1 ∧
    lineKind text = .floating ∧ ∀ other ∈ front, lineKind other ≠ .floating

def fileTexts (lines : List FileLine) (last : List UInt8) : List (List UInt8) :=
  lines.map FileLine.text ++ [last]

theorem exists_firstFloating {texts : List (List UInt8)}
    (floats : ∃ text ∈ texts, lineKind text = .floating) :
    ∃ number, FirstFloating texts number := by
  induction texts with
  | nil => simp at floats
  | cons text texts induction =>
    by_cases here : lineKind text = .floating
    · exact ⟨1, [], text, texts, rfl, rfl, here, by simp⟩
    · obtain ⟨number, front, later, back, split, counts, kind, none⟩ :=
        induction (by simpa [here] using floats)
      refine ⟨number + 1, text :: front, later, back, ?_, ?_, kind, ?_⟩
      · rw [split, List.cons_append]
      · rw [counts, List.length_cons]
      · exact List.forall_mem_cons.mpr ⟨here, none⟩

theorem takeWhile_floating {front : List (List UInt8)} {text : List UInt8}
    (none : ∀ other ∈ front, lineKind other ≠ .floating)
    (floats : lineKind text = .floating) (back : List (List UInt8)) :
    (front ++ text :: back).takeWhile (fun line => lineKind line ≠ .floating) =
      front := by
  refine (ByteBlock.takeWhile_dropWhile_append ?_ ?_).1
  · intro other member
    simpa using none other member
  · rintro _ ⟨⟩
    simpa using floats

theorem segments_split {lines : List FileLine} {last : List UInt8}
    {front back : List (List UInt8)} {text : List UInt8}
    (split : fileTexts lines last = front ++ text :: back) :
    (lines.take front.length).map FileLine.text = front ∧ ∃ behind, segments lines ++ [last] =
        segments (lines.take front.length) ++ text :: behind := by
  induction lines generalizing front with
  | nil =>
    cases front with
    | nil =>
      obtain ⟨rfl, -⟩ := List.cons.inj split
      exact ⟨rfl, [], rfl⟩
    | cons other front => simp [fileTexts] at split
  | cons line lines induction =>
    cases front with
    | nil =>
      obtain ⟨rfl, -⟩ := List.cons.inj split
      refine ⟨rfl, ?_⟩
      rw [segments_cons, FileLine.segments]
      split
      · exact ⟨[] :: (segments lines ++ [last]), rfl⟩
      · exact ⟨segments lines ++ [last], rfl⟩
    | cons other front =>
      obtain ⟨rfl, tail⟩ := List.cons.inj split
      obtain ⟨texts, behind, same⟩ := induction tail
      refine ⟨?_, behind, ?_⟩
      · rw [List.length_cons, List.take_succ_cons, List.map_cons, texts]
      · rw [List.length_cons, List.take_succ_cons, segments_cons, segments_cons,
          List.append_assoc, same, List.append_assoc]

/-- A line that is passed as one line: LF ends it, it does not end the work, and it
has no whitespace behind a value. -/
def FileLine.CountsOnce (line : FileLine) : Prop :=
  line.crlf = false ∧ lineKind line.text ≠ .stop ∧
    (lineKind line.text = .entry → entryTrail line.text = [])

theorem trailCount_eq_zero_iff (texts : List (List UInt8)) :
    trailCount texts = 0 ↔ ∀ text ∈ texts, lineKind text = .entry → entryTrail text = [] := by
  induction texts with
  | nil => simp [trailCount]
  | cons text texts induction =>
    rw [trailCount, Nat.add_eq_zero_iff, induction, List.forall_mem_cons]
    refine and_congr_left fun _ => ?_
    split_ifs with entry
    · simp [entry]
    · simp [entry]

theorem FileLine.segments_eq_cons (line : FileLine) :
    ∃ more, line.segments = line.text :: more := by
  rw [FileLine.segments]
  split
  · exact ⟨[[]], rfl⟩
  · exact ⟨[], rfl⟩

variable {copies : Nat → Bool × Bool} {lines : List FileLine} {last : List UInt8}

theorem parseFile_first_line {text : List UInt8} {back : List (List UInt8)}
    (split : fileTexts lines last = text :: back)
    (floats : lineKind text = .floating) :
    (parseFile copies (segments lines) last).2 ≠ .floating 1 := by
  cases lines with
  | nil =>
    obtain ⟨rfl, -⟩ := List.cons.inj split
    rw [segments, List.flatMap_nil, parseFile]
    split_ifs
    · simp
    · simp
  | cons line lines =>
    obtain ⟨rfl, -⟩ := List.cons.inj split
    obtain ⟨more, shape⟩ := line.segments_eq_cons
    rw [segments_cons, shape, List.cons_append, parseFile, if_pos floats]
    intro reported
    obtain ⟨front, _, _, -, -, -, -, counts⟩ := (parseLines_floating_iff _ _ _ _ _).mp reported
    omega

theorem parseFile_later {front back : List (List UInt8)} {text : List UInt8}
    (split : fileTexts lines last = front ++ text :: back) (later : front ≠ [])
    (none : ∀ other ∈ front, lineKind other ≠ .floating) :
    parseFile copies (segments lines) last = parseLines copies last 0 1 (segments lines) := by
  obtain ⟨other, front, rfl⟩ := List.exists_cons_of_ne_nil later
  cases lines with
  | nil => simp [fileTexts] at split
  | cons line lines =>
    obtain ⟨rfl, -⟩ := List.cons.inj split
    obtain ⟨more, shape⟩ := line.segments_eq_cons
    rw [segments_cons, shape, List.cons_append, parseFile,
      if_neg (none line.text (List.mem_cons_self ..))]

theorem floating_of_parseFile {number : Nat}
    (reported : (parseFile copies (segments lines) last).2 = .floating number) :
    ∃ text ∈ fileTexts lines last, lineKind text = .floating := by
  by_contra! none
  rw [fileTexts, List.forall_mem_append] at none
  have noneLines : ∀ text ∈ segments lines, lineKind text ≠ .floating :=
    (forall_mem_segments (by decide) lines).mpr (by simpa using none.1)
  have parses : (parseLines copies last 0 1 (segments lines)).2 ≠ .floating number := by
    intro reported
    obtain ⟨front, text, back, split, -, -, floats, -⟩ :=
      (parseLines_floating_iff _ _ _ _ _).mp reported
    have member : text ∈ segments lines ++ [last] := by
      rw [split]
      simp
    rcases List.mem_append.mp member with member | member
    · exact noneLines text member floats
    · exact none.2 text member floats
  generalize segments lines = buffer at reported noneLines parses
  cases buffer with
  | nil =>
    rw [parseFile] at reported
    split_ifs at reported
    exact parses reported
  | cons line buffer =>
    rw [parseFile, if_neg (noneLines line (List.mem_cons_self ..))] at reported
    exact parses reported

theorem forall_countsOnce_iff {before : List FileLine}
    (none : ∀ line ∈ before, lineKind line.text ≠ .floating) :
    (∀ line ∈ before, line.CountsOnce) ↔ (∀ text ∈ segments before, Clear text) ∧
        before.countP FileLine.crlf + trailCount (segments before) = 0 := by
  rw [forall_mem_segments (by simp [Clear, lineKind]), trailCount_segments,
    Nat.add_eq_zero_iff, trailCount_eq_zero_iff, List.countP_eq_zero]
  simp only [FileLine.CountsOnce, Clear, List.forall_mem_map, Bool.not_eq_true]
  constructor
  · intro once
    exact ⟨fun line member => ⟨none line member, (once line member).2.1⟩,
      fun line member => (once line member).1,
      fun line member => (once line member).2.2⟩
  · rintro ⟨clear, lf, trails⟩ line member
    exact ⟨lf line member, (clear line member).2, trails line member⟩

theorem parseFile_first {number : Nat} (first : FirstFloating (fileTexts lines last) number) :
    (parseFile copies (segments lines) last).2 = .floating number ↔
      1 < number ∧ (∀ line ∈ lines.take (number - 1), line.CountsOnce) ∧
        Copied copies 0 (entriesOf ((lines.take (number - 1)).map FileLine.text)).length := by
  obtain ⟨front, text, back, split, rfl, floats, none⟩ := first
  obtain ⟨texts, behind, buffer⟩ := segments_split split
  rw [Nat.add_sub_cancel]
  by_cases later : front = []
  · subst later
    simpa using parseFile_first_line split floats
  have positive : 1 < front.length + 1 := by
    have := List.length_pos_iff.mpr later
    omega
  generalize lines.take front.length = before at texts buffer ⊢
  have length : before.length = front.length := by
    rw [← texts, List.length_map]
  have noneBefore : ∀ line ∈ before, lineKind line.text ≠ .floating := by
    rw [← texts] at none
    simpa using none
  rw [parseFile_later split later none, parseLines_floating_iff,
    forall_countsOnce_iff noneBefore, ← entriesOf_segments, and_iff_right positive]
  have counts := length_segments before
  constructor
  · rintro ⟨front', text', back', split', clear, copied, floats', number⟩
    obtain rfl : segments before = front' := by
      have plain : ∀ other ∈ segments before, lineKind other ≠ .floating :=
        (forall_mem_segments (by decide) before).mpr noneBefore
      have here := takeWhile_floating plain floats behind
      rw [← buffer, split', takeWhile_floating (fun other member =>
        (clear other member).1) floats' back'] at here
      exact here.symm
    exact ⟨⟨clear, by omega⟩, copied⟩
  · rintro ⟨⟨clear, once⟩, copied⟩
    exact ⟨segments before, text, behind, buffer, clear, copied, floats, by omega⟩

end Floating

/-- The line number that `load` returns is the one of the first floating text, exactly
when this is not in the first line, the file can be read, there is memory, and all
lines in front of it count once. -/
theorem load_reports_iff (context : LoadContext) (state : ConfigFile)
    (reachable : state.Reachable) (source : List UInt8) (lines : List FileLine)
    (last : List UInt8) (clean : Clean last)
    (file : ∀ attempt ∈ context.attempts,
      attempt.content = some (fileBytes lines last)) :
    (∀ number : Nat, 0 < number →
      ((∃ state', load context state (some source) = .ok ((number : Int), state')) ↔
        FirstFloating (fileTexts lines last) number)) ↔
    ∀ number, FirstFloating (fileTexts lines last) number →
      1 < number ∧ context.locked = true ∧
      (fileRead context.attempts).isSome = true ∧ context.memory.items = true ∧
      (∀ line ∈ lines.take (number - 1), line.CountsOnce) ∧
      Copied context.memory.copies 0
        (entriesOf ((lines.take (number - 1)).map FileLine.text)).length := by
  have positive {number : Nat} (first : FirstFloating (fileTexts lines last) number) :
      0 < number := by
    obtain ⟨_, _, _, -, rfl, -, -⟩ := first
    exact Nat.succ_pos _
  have returns {number : Nat} (positive : 0 < number) :=
    load_positive_iff reachable.valid clean file source positive
  constructor
  · intro reports number first
    obtain ⟨locked, reads, items, parses⟩ := (returns (positive first)).mp
      ((reports number (positive first)).mpr first)
    obtain ⟨later, once, copied⟩ := (parseFile_first first).mp parses
    exact ⟨later, locked, reads, items, once, copied⟩
  · intro condition number numberPositive
    rw [returns numberPositive]
    constructor
    · rintro ⟨-, -, -, parses⟩
      obtain ⟨other, first⟩ : ∃ other, FirstFloating (fileTexts lines last) other :=
        exists_firstFloating (floating_of_parseFile parses)
      obtain ⟨later, -, -, -, once, copied⟩ := condition other first
      have same := (parseFile_first first).mpr ⟨later, once, copied⟩
      rw [parses] at same
      cases same
      exact first
    · intro first
      obtain ⟨later, locked, reads, items, once, copied⟩ := condition number first
      exact ⟨locked, reads, items, (parseFile_first first).mpr ⟨later, once, copied⟩⟩

def readingFile (lines : List FileLine) : LoadContext :=
  ⟨true, [⟨true, .found, some (fileBytes lines []), true, true, false, none⟩],
    ⟨true, fun _ => (true, true)⟩⟩

def floatingFile : List FileLine := [⟨[97], false, by decide⟩, ⟨[32, 98], false, by decide⟩]

theorem load_reports_second :
    load (readingFile floatingFile) ⟨none, none⟩ (some [102]) =
      .ok (2, ⟨none, none⟩) ∧
    ∀ number : Nat, 0 < number →
      ((∃ state', load (readingFile floatingFile) ⟨none, none⟩ (some [102]) =
          .ok ((number : Int), state')) ↔
        FirstFloating (fileTexts floatingFile []) number) := by
  refine ⟨rfl, (load_reports_iff (readingFile floatingFile) ⟨none, none⟩ .new [102]
    floatingFile [] (by decide) (by simp [readingFile])).mpr ?_⟩
  rintro number ⟨front, text, back, split, rfl, floats, none⟩
  match front, split with
  | [], split =>
    obtain ⟨rfl, -⟩ := List.cons.inj split
    exact absurd floats (by decide)
  | [_], _ =>
    refine ⟨Nat.lt_succ_self 1, rfl, rfl, rfl, ?_, fun _ _ => rfl⟩
    simp [floatingFile, FileLine.CountsOnce, lineKind, entryTrail, entryRest, wspace, commentChar]
  | _ :: second :: _, split =>
    obtain ⟨rfl, -⟩ := List.cons.inj (List.cons.inj split).2
    exact absurd rfl (none [32, 98] (by simp))

/-- Floating text in the first line is not reported.  In the second line it is
reported for the third if CR LF ends the first line, or if a value there has
whitespace behind it. -/
theorem load_reports_wrong :
    FirstFloating (fileTexts [⟨[32, 97], false, by decide⟩] []) 1 ∧
    load (readingFile [⟨[32, 97], false, by decide⟩]) ⟨none, none⟩ (some [102]) =
      .ok (0, ⟨some [⟨none, none⟩, ⟨none, none⟩], none⟩) ∧
    FirstFloating (fileTexts [⟨[97], true, by decide⟩, ⟨[32, 98], true, by decide⟩]
      []) 2 ∧
    load (readingFile [⟨[97], true, by decide⟩, ⟨[32, 98], true, by decide⟩])
      ⟨none, none⟩ (some [102]) = .ok (3, ⟨none, none⟩) ∧
    FirstFloating (fileTexts [⟨[97, 32, 98, 32], false, by decide⟩,
      ⟨[32, 99], false, by decide⟩] []) 2 ∧
    load (readingFile [⟨[97, 32, 98, 32], false, by decide⟩,
        ⟨[32, 99], false, by decide⟩]) ⟨none, none⟩ (some [102]) =
      .ok (3, ⟨none, none⟩) :=
  ⟨⟨[], [32, 97], [[]], rfl, rfl, rfl, by simp⟩, rfl,
    ⟨[[97]], [32, 98], [[]], rfl, rfl, rfl, by decide⟩, rfl,
    ⟨[[97, 32, 98, 32]], [32, 99], [[]], rfl, rfl, rfl, by decide⟩, rfl⟩

end MercuryFix
