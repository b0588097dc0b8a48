import MercuryFix.SplitterThread

/-!
# The splitter, one byte at a time

The source copies a body entry by entry.  Here every byte is handled alone:
`progress` says what one byte does to the parse state and when it completes a
message, and `splitByte` hands a complete message to the same
`messageComplete`.  The splitter's consistency invariant is stated and shown
to survive every byte.
-/

namespace MercuryFix

open DecimalText ByteBlock

/-- Forget the two copy counters outside `CopyingBody`, where the next accepted
BodyLength sets them anew. -/
def Splitter.settled (s : Splitter) : Splitter :=
  if s.state = .copyingBody then s
  else { s with bytesLeftToCopy := 0, offset := 0 }

@[simp]
theorem Splitter.settled_state (s : Splitter) : s.settled.state = s.state := by
  unfold Splitter.settled
  split <;> rfl

@[simp]
theorem Splitter.settled_l (s : Splitter) : s.settled.l = s.l := by
  unfold settled
  split
  · rfl
  · rfl

@[simp]
theorem Splitter.settled_expected (s : Splitter) : s.settled.expected = s.expected := by
  unfold Splitter.settled
  split <;> rfl

@[simp]
theorem Splitter.settled_erange (s : Splitter) : s.settled.erange = s.erange := by
  unfold Splitter.settled
  split <;> rfl

@[simp]
theorem Splitter.settled_fault (s : Splitter) : s.settled.fault = s.fault := by
  unfold Splitter.settled
  split <;> rfl

theorem Splitter.settled_of_copying {s : Splitter}
    (phase : s.state = .copyingBody) : s.settled = s :=
  if_pos phase

/-- The `switch` on one byte, up to the point where the byte is to be copied:
`true` when it is. -/
def headerByte (args : SplitterArgs) (byte : UInt8) (s : Splitter) :
    Splitter × Bool :=
  match s.state with
  | .findingBeginString =>
    let header := findingBeginString args byte s
    if header.2 then findingBodyLength args byte header.1
    else (header.1, false)
  | .findingBodyLength => findingBodyLength args byte s
  | .copyingBody => (s, true)

/-- What one byte does: it moves the parse state, or it completes the message
in the delta entry.  A BodyLength that wraps the 32-bit count to zero
completes a message before its byte is consumed. -/
inductive Progress
  | moved (s : Splitter)
  | found (s : Splitter) (consumed : Bool)
  deriving DecidableEq

def progress (args : SplitterArgs) (s : Splitter) (byte : UInt8) : Progress :=
  if s.fault ≠ none then .moved s
  else
    let header := headerByte args byte s
    if header.2 = false then .moved header.1.settled
    else if header.1.bytesLeftToCopy = 0 then .found header.1 false
    else
      match memcpy header.1.delta.data header.1.offset [byte] with
      | none => .moved { header.1 with fault := some .deltaWrite }
      | some block =>
        let copied :=
          { header.1 with
            delta := { header.1.delta with data := block }
            bytesLeftToCopy := header.1.bytesLeftToCopy - 1
            offset := header.1.offset + 1 }
        if copied.bytesLeftToCopy = 0 then .found copied true
        else .moved copied

def Splitter.restarted (s : Splitter) : Splitter := { s with state := .findingBeginString }

def handled (args : SplitterArgs) (message : Splitter) : Splitter :=
  (messageComplete args message).1.restarted

def messageEffects (args : SplitterArgs) (message : Splitter) : List Effect :=
  (messageComplete args message).2

def splitByte (args : SplitterArgs) (s : Splitter) (byte : UInt8) :
    Splitter × List Effect :=
  match progress args s byte with
  | .moved next => (next, [])
  | .found message consumed =>
    (if consumed || (handled args message).fault.isSome then
        (handled args message).settled
      else (headerByte args byte (handled args message)).1.settled,
      messageEffects args message)

def splitBytes (args : SplitterArgs) (s : Splitter) (stream : List UInt8) :
    Splitter × List Effect :=
  MealyMachine.run (splitByte args) s stream

section Characters

theorem noNul_of_digits {text : List UInt8}
    (digits : ∀ byte ∈ text, isDigit byte = true) : (0 : UInt8) ∉ text :=
  fun member => absurd (digits 0 member) (by decide)

end Characters

section Consistency

variable (args : SplitterArgs)

def headerLength (s : Splitter) : Nat := args.beginString.length + (cString s.lengthStr).length

structure LengthDigits (text : List UInt8) : Prop where
  digits : ∀ byte ∈ text, isDigit byte = true
  closed : args.soh ∉ text

/-- The delta entry while a body is copied: it has room for the whole message,
starts with the header, and the two counters cover the rest exactly. -/
structure Copying (s : Splitter) : Prop where
  text : LengthDigits args (cString s.lengthStr)
  short : (cString s.lengthStr).length ≤ 20
  inRange : value (cString s.lengthStr) ≤ 2 ^ 63 - 1
  nonzero : value (cString s.lengthStr) % 2 ^ 32 ≠ 0
  size : s.delta.size = headerLength args s + (value (cString s.lengthStr) % 2 ^ 32 + 8) % 2 ^ 32
  bounded : s.delta.size < 2 ^ 32
  covered : s.offset + s.bytesLeftToCopy = s.delta.size
  room : s.delta.size ≤ s.delta.data.length
  header : s.delta.data.take (headerLength args s) = args.beginString ++ cString s.lengthStr
  behind : headerLength args s ≤ s.offset
  delimiter : headerLength args s < s.offset → s.delta.data[headerLength args s]? = some args.soh

def Backed (delta : DeltaEntry) : Prop :=
  delta.size ≤ delta.data.length ∨ delta.data = [] ∧ ∃ count, args.mallocSucceeds count = false

/-- What holds of the splitter between any two bytes. -/
structure Consistent (s : Splitter) : Prop where
  lengthStr : s.lengthStr.length = 32
  counter : s.expected < 2 ^ 64
  size : s.delta.size < 2 ^ 32
  room : Backed args s.delta
  finding : s.state = .findingBodyLength → s.l ≤ 21 ∧ LengthDigits args (s.lengthStr.take s.l)
  copying : s.state = .copyingBody → Copying args s ∧
    0 < s.bytesLeftToCopy ∧ headerLength args s < s.offset

def Sound (s : Splitter) : Prop := s.fault = none → Consistent args s

theorem LengthDigits.nil : LengthDigits args [] := ⟨by simp, by simp⟩

theorem consistent_initial (lastReceived : UInt64) :
    Consistent args (Splitter.initial lastReceived) where
  lengthStr := rfl
  counter := lastReceived.toNat_lt
  size := by simp [Splitter.initial, DeltaEntry.vacant]
  room := Or.inl (Nat.le_refl 0)
  finding := by intro impossible; cases impossible
  copying := by intro impossible; cases impossible

variable {args}

theorem Consistent.settled {s : Splitter} (consistent : Consistent args s) :
    Consistent args s.settled := by
  by_cases phase : s.state = .copyingBody
  · rw [Splitter.settled_of_copying phase]
    exact consistent
  · rw [Splitter.settled, if_neg phase]
    exact { consistent with
        copying := fun impossible => absurd impossible phase }

theorem Sound.settled {s : Splitter} (sound : Sound args s) : Sound args s.settled := by
  intro noFault
  rw [Splitter.settled_fault] at noFault
  exact (sound noFault).settled

end Consistency

section Header

variable {args : SplitterArgs} {s : Splitter}

theorem writeHeader_of_fits {text : List UInt8}
    (fits : args.beginString.length + text.length ≤ s.delta.data.length) :
    writeHeader args text s = ({ s with
          delta := { s.delta with
            data := blit s.delta.data 0 (args.beginString ++ text) }
          offset := args.beginString.length + text.length
          state := .copyingBody }, true) := by
  have first : 0 + args.beginString.length ≤ s.delta.data.length := by omega
  have both : blit (blit s.delta.data 0 args.beginString) (0 + args.beginString.length) text =
        blit s.delta.data 0 (args.beginString ++ text) := blit_blit first
  rw [Nat.zero_add] at both
  have second : args.beginString.length + text.length ≤
      (blit s.delta.data 0 args.beginString).length := by
    rw [length_blit first]
    exact fits
  simp only [writeHeader, memcpy_of_fits first, Option.bind_some, memcpy_of_fits second, both]

theorem writeHeader_of_overrun {text : List UInt8}
    (overrun : s.delta.data.length < args.beginString.length + text.length) :
    writeHeader args text s = ({ s with fault := some .deltaWrite }, false) := by
  by_cases first : 0 + args.beginString.length ≤ s.delta.data.length
  · have second : (blit s.delta.data 0 args.beginString).length <
        args.beginString.length + text.length := by
      rw [length_blit first]
      exact overrun
    simp only [writeHeader, memcpy_of_fits first, Option.bind_some, memcpy_of_overrun second]
  · simp only [writeHeader, memcpy_of_overrun (not_le.mp first), Option.bind_none]

def messageSize (args : SplitterArgs) (bodyLength : Nat) (text : List UInt8) : Nat :=
  args.beginString.length + text.length + (bodyLength + 8) % 2 ^ 32

def Splitter.reserve (args : SplitterArgs) (bodyLength : Nat)
    (text : List UInt8) (s : Splitter) : Splitter :=
  let needed := messageSize args bodyLength text
  { s with
    bytesLeftToCopy := (bodyLength + 8) % 2 ^ 32
    mallocs := if s.delta.size < needed then s.mallocs + 1 else s.mallocs
    delta := { s.delta with
      size := needed % 2 ^ 32
      data :=
        if s.delta.size < needed then List.replicate (needed % 2 ^ 32) 0
        else s.delta.data } }

theorem acceptBodyLength_of_room {bodyLength : Nat} {text : List UInt8}
    (room : messageSize args bodyLength text ≤ s.delta.size ∨
      args.mallocSucceeds s.mallocs = true) :
    acceptBodyLength args bodyLength text s =
      writeHeader args text (s.reserve args bodyLength text) := by
  unfold acceptBodyLength Splitter.reserve
  by_cases grows : s.delta.size < messageSize args bodyLength text
  · have succeeds : args.mallocSucceeds s.mallocs = true := room.resolve_left (by omega)
    simp only [if_pos grows]
    rw [messageSize] at grows ⊢
    simp only [Nat.add_assoc, Nat.reduceAdd] at grows ⊢
    rw [if_pos grows, if_pos succeeds]
  · simp only [if_neg grows]
    rw [messageSize] at grows ⊢
    simp only [Nat.add_assoc, Nat.reduceAdd] at grows ⊢
    rw [if_neg grows]

theorem acceptBodyLength_of_mallocFails {bodyLength : Nat} {text : List UInt8}
    (grows : s.delta.size < messageSize args bodyLength text)
    (fails : args.mallocSucceeds s.mallocs = false) :
    acceptBodyLength args bodyLength text s = ({ s with
          bytesLeftToCopy := (bodyLength + 8) % 2 ^ 32
          mallocs := s.mallocs + 1
          delta := { s.delta with
            size := messageSize args bodyLength text % 2 ^ 32, data := [] }
          state := .findingBeginString }, false) := by
  unfold acceptBodyLength
  rw [messageSize] at grows ⊢
  simp only [Nat.add_assoc, Nat.reduceAdd] at grows ⊢
  rw [if_pos grows, fails]
  rfl

theorem cString_set_nul {lengthStr : List UInt8} {l : Nat} (inside : l < lengthStr.length)
    (digits : ∀ byte ∈ lengthStr.take l, isDigit byte = true) :
    cString (lengthStr.set l 0) = lengthStr.take l := by
  rw [List.set_eq_take_append_cons_drop, if_pos inside, cString_of_noNul (noNul_of_digits digits)]

theorem atoll_of_le {text : List UInt8} (small : value text ≤ 2 ^ 63 - 1) :
    atoll text = (value text, false) := by
  rw [atoll, Nat.min_eq_left small, decide_eq_false (by omega)]

theorem findingBodyLength_delimiter (inside : s.l < 21) (room : s.lengthStr.length = 32)
    (digits : ∀ byte ∈ s.lengthStr.take s.l, isDigit byte = true) :
    let number := atoll (s.lengthStr.take s.l)
    let closed := { s with
        lengthStr := s.lengthStr.set s.l 0
        l := 0
        erange := s.erange || number.2 }
    findingBodyLength args args.soh s = if number.1 % 2 ^ 32 = 0 ∨ closed.erange = true then
        ({ closed with state := .findingBeginString }, false)
      else
        acceptBodyLength args (number.1 % 2 ^ 32) (s.lengthStr.take s.l)
          closed := by
  intro number closed
  have textEq : cString (s.lengthStr.set s.l 0) = s.lengthStr.take s.l :=
    cString_set_nul (by omega) digits
  unfold findingBodyLength
  rw [if_neg (by omega)]
  simp only [bne_self_eq_false, Bool.and_false, List.set_set, textEq]
  rw [if_neg Bool.false_ne_true, if_neg Bool.false_ne_true]
  simp only [number, closed, Bool.or_eq_true, decide_eq_true_iff]

theorem findingBodyLength_of_ne {byte : UInt8} (other : args.soh ≠ byte) :
    findingBodyLength args byte s =
      if s.l = 21 then ({ s with l := 0, state := .findingBeginString }, false)
      else if isDigit byte = true then
        ({ s with lengthStr := s.lengthStr.set s.l byte, l := s.l + 1 }, false)
      else
        ({ s with
            lengthStr := s.lengthStr.set s.l byte
            state := .findingBeginString
            l := 0 }, false) := by
  have differs : (args.soh != byte) = true := by simpa using other
  unfold findingBodyLength
  rw [differs]
  cases isDigit byte <;> simp

/-- The splitter right behind an accepted BodyLength, before the delimiter is
copied. -/
structure Accepted (args : SplitterArgs) (s : Splitter) : Prop
    extends Copying args s where
  atCopying : s.state = .copyingBody
  lengthStr : s.lengthStr.length = 32
  atDelimiter : s.offset = headerLength args s

theorem Consistent.reserve_room {bodyLength : Nat} {text : List UInt8}
    (consistent : Consistent args s) (fits : messageSize args bodyLength text < 2 ^ 32)
    (block : (s.reserve args bodyLength text).delta.data ≠ []) :
    messageSize args bodyLength text ≤ (s.reserve args bodyLength text).delta.data.length := by
  by_cases grows : s.delta.size < messageSize args bodyLength text
  · simp only [Splitter.reserve, if_pos grows, List.length_replicate]
    omega
  · simp only [Splitter.reserve, if_neg grows] at block ⊢
    have room := consistent.room.resolve_right (fun unbacked => block unbacked.1)
    omega

theorem Consistent.reserve_wrapped {bodyLength : Nat} {text : List UInt8}
    (consistent : Consistent args s) (short : text.length ≤ 20)
    (wraps : 2 ^ 32 ≤ messageSize args bodyLength text) :
    (s.reserve args bodyLength text).delta.data.length < args.beginString.length + text.length := by
  have bounded := consistent.size
  have beginFits := args.fits
  have grows : s.delta.size < messageSize args bodyLength text := by omega
  simp only [Splitter.reserve, if_pos grows, List.length_replicate]
  unfold messageSize at wraps ⊢
  omega

theorem acceptBodyLength_sound (consistent : Consistent args s)
    (noFault : s.fault = none) (finding : s.state = .findingBodyLength)
    (digits : LengthDigits args (cString s.lengthStr))
    (short : (cString s.lengthStr).length ≤ 20)
    (inRange : value (cString s.lengthStr) ≤ 2 ^ 63 - 1)
    (nonzero : value (cString s.lengthStr) % 2 ^ 32 ≠ 0) :
    let next := acceptBodyLength args (value (cString s.lengthStr) % 2 ^ 32) (cString s.lengthStr) s
    next.1.expected = s.expected ∧ next.1.erange = s.erange ∧
      (next.2 = true ∧ next.1.fault = none ∧ Accepted args next.1 ∨
        next.2 = false ∧ next.1.state ≠ .copyingBody ∧ Sound args next.1) := by
  intro next
  set text := cString s.lengthStr with textEq
  set bodyLength := value text % 2 ^ 32 with bodyLengthEq
  have beginFits := args.fits
  by_cases room : messageSize args bodyLength text ≤ s.delta.size ∨
      args.mallocSucceeds s.mallocs = true
  · have nextEq : next = writeHeader args text
        (s.reserve args bodyLength text) := acceptBodyLength_of_room room
    by_cases fits : args.beginString.length + text.length ≤
        (s.reserve args bodyLength text).delta.data.length
    · rw [writeHeader_of_fits fits] at nextEq
      have notWrapped : messageSize args bodyLength text < 2 ^ 32 := by
        by_contra wraps
        have tooSmall := consistent.reserve_wrapped short (not_lt.mp wraps)
        omega
      have textNonempty : 0 < text.length := by
        rw [List.length_pos_iff]
        intro empty
        rw [bodyLengthEq, empty, value_nil] at nonzero
        exact nonzero rfl
      have enough := consistent.reserve_room notWrapped (List.ne_nil_of_length_pos (by omega))
      have width : 0 + (args.beginString ++ text).length ≤
          (s.reserve args bodyLength text).delta.data.length := by
        rw [List.length_append]
        omega
      have written : (blit (s.reserve args bodyLength text).delta.data 0
          (args.beginString ++ text)).take (args.beginString.length + text.length) =
          args.beginString ++ text := by
        rw [← List.length_append, blit_zero, List.take_left]
      have sizeEq : messageSize args bodyLength text % 2 ^ 32 =
          messageSize args bodyLength text := Nat.mod_eq_of_lt notWrapped
      rw [nextEq]
      refine ⟨rfl, rfl, Or.inl ⟨rfl, noFault, ?_⟩⟩
      exact
        { text := digits
          short := short
          inRange := inRange
          nonzero := nonzero
          size := sizeEq
          bounded := Nat.mod_lt _ (by omega)
          covered := sizeEq.symm
          room := by
            rw [length_blit width]
            exact sizeEq.trans_le enough
          header := written
          behind := le_refl _
          delimiter := fun beyond => absurd beyond (lt_irrefl _)
          atCopying := rfl
          lengthStr := consistent.lengthStr
          atDelimiter := rfl }
    · rw [writeHeader_of_overrun (not_le.mp fits)] at nextEq
      rw [nextEq]
      refine ⟨rfl, rfl, Or.inr ⟨rfl, ?_, ?_⟩⟩
      · simp [Splitter.reserve, finding]
      · intro impossible
        cases impossible
  · rw [not_or, Bool.not_eq_true, not_le] at room
    have nextEq := acceptBodyLength_of_mallocFails room.1 room.2
    rw [show next = _ from nextEq]
    refine ⟨rfl, rfl, Or.inr ⟨rfl, by simp, fun _ => ?_⟩⟩
    exact
      { lengthStr := consistent.lengthStr
        counter := consistent.counter
        size := Nat.mod_lt _ (by omega)
        room := Or.inr ⟨rfl, s.mallocs, room.2⟩
        finding := by intro impossible; cases impossible
        copying := by intro impossible; cases impossible }

def bodyLengthOverflows (args : SplitterArgs) (s : Splitter) (byte : UInt8) : Bool :=
  decide (s.state = .findingBodyLength ∧ s.l ≠ 21 ∧ byte = args.soh ∧
    2 ^ 63 - 1 < value (s.lengthStr.take s.l))

theorem take_set_succ {bytes : List UInt8} {l : Nat} (byte : UInt8) (inside : l < bytes.length) :
    (bytes.set l byte).take (l + 1) = bytes.take l ++ [byte] := by
  rw [List.take_add_one, List.take_set_of_le (le_refl l), List.getElem?_set_self inside]
  rfl

section

variable (consistent : Consistent args s)
include consistent

theorem Consistent.restart {next : Splitter} (delta : next.delta = s.delta)
    (expected : next.expected = s.expected) (room : next.lengthStr.length = 32)
    (restarted : next.state = .findingBeginString) : Consistent args next where
  lengthStr := room
  counter := expected ▸ consistent.counter
  size := delta ▸ consistent.size
  room := delta ▸ consistent.room
  finding := by intro impossible; rw [restarted] at impossible; cases impossible
  copying := by intro impossible; rw [restarted] at impossible; cases impossible

theorem Consistent.enter : Consistent args { s with l := 0, state := .findingBodyLength } where
  lengthStr := consistent.lengthStr
  counter := consistent.counter
  size := consistent.size
  room := consistent.room
  finding := fun _ => ⟨Nat.zero_le 21, .nil args⟩
  copying := by intro impossible; cases impossible

theorem Consistent.digit {byte : UInt8} (finding : s.state = .findingBodyLength) (inside : s.l < 21)
    (digit : isDigit byte = true) (other : args.soh ≠ byte) :
    Consistent args { s with lengthStr := s.lengthStr.set s.l byte, l := s.l + 1 } where
  lengthStr := by rw [List.length_set]; exact consistent.lengthStr
  counter := consistent.counter
  size := consistent.size
  room := consistent.room
  finding := by
    intro _
    have room := consistent.lengthStr
    have extended := take_set_succ byte (by omega : s.l < s.lengthStr.length)
    have earlier := (consistent.finding finding).2
    refine ⟨inside, ?_, ?_⟩
    · simp only [extended, List.mem_append, List.mem_singleton]
      rintro collected (before | rfl)
      · exact earlier.digits collected before
      · exact digit
    · simp only [extended, List.mem_append, List.mem_singleton, not_or]
      exact ⟨earlier.closed, other⟩
  copying := by intro impossible; rw [finding] at impossible; cases impossible

theorem Consistent.close (finding : s.state = .findingBodyLength) (erange : Bool) :
    Consistent args { s with lengthStr := s.lengthStr.set s.l 0, l := 0, erange := erange } where
  lengthStr := by rw [List.length_set]; exact consistent.lengthStr
  counter := consistent.counter
  size := consistent.size
  room := consistent.room
  finding := fun _ => ⟨Nat.zero_le 21, .nil args⟩
  copying := by intro impossible; rw [finding] at impossible; cases impossible

theorem findingBodyLength_sound (noFault : s.fault = none) (finding : s.state = .findingBodyLength)
    (byte : UInt8) :
    let next := findingBodyLength args byte s
    next.1.expected = s.expected ∧
      next.1.erange = (s.erange || bodyLengthOverflows args s byte) ∧
      (next.2 = true ∧ byte = args.soh ∧ 0 < s.l ∧ next.1.erange = false ∧
          next.1.fault = none ∧ Accepted args next.1 ∨
        next.2 = false ∧ next.1.state ≠ .copyingBody ∧ Sound args next.1) := by
  intro next
  obtain ⟨atMost, digits⟩ := consistent.finding finding
  have room := consistent.lengthStr
  by_cases atEnd : s.l = 21
  · have nextEq : next = ({ s with l := 0, state := .findingBeginString }, false) := if_pos atEnd
    rw [nextEq]
    refine ⟨rfl, by simp [bodyLengthOverflows, atEnd], Or.inr ⟨rfl, by simp, ?_⟩⟩
    exact fun _ => consistent.restart rfl rfl room rfl
  have inside : s.l < 21 := by omega
  by_cases delimiter : byte = args.soh
  · subst delimiter
    set text := s.lengthStr.take s.l with textIs
    have overflowEq : (atoll text).2 = bodyLengthOverflows args s args.soh := by
      simp [bodyLengthOverflows, finding, atEnd, atoll, textIs]
    have textEq : cString (s.lengthStr.set s.l 0) = text := cString_set_nul (by omega) digits.digits
    have nextEq : next = _ := findingBodyLength_delimiter inside room digits.digits
    rw [← overflowEq]
    split at nextEq
    · rw [nextEq]
      refine ⟨rfl, rfl, Or.inr ⟨rfl, by simp, fun _ => ?_⟩⟩
      exact consistent.restart rfl rfl (by simpa using room) rfl
    · rename_i accepted
      rw [not_or, Bool.not_eq_true, Bool.or_eq_false_iff] at accepted
      obtain ⟨nonzero, cleared, inRange⟩ := accepted
      have small : value text ≤ 2 ^ 63 - 1 := by
        simpa only [atoll, decide_eq_false_iff_not, not_lt] using inRange
      have number : atoll text = (value text, false) := atoll_of_le small
      rw [number] at nonzero nextEq
      have started : 0 < s.l := by
        by_contra atStart
        rw [textIs, Nat.eq_zero_of_not_pos atStart, List.take_zero, value_nil] at nonzero
        exact nonzero rfl
      have outcome := acceptBodyLength_sound
        (consistent.close finding (s.erange || false)) noFault finding
      simp only [textEq] at outcome
      obtain ⟨expectedEq, erangeEq, result⟩ := outcome digits
        ((List.length_take_le s.l s.lengthStr).trans (by omega)) small nonzero
      rw [nextEq, number]
      refine ⟨expectedEq, erangeEq, ?_⟩
      rcases result with ⟨falls, runs, accepted⟩ | refused
      · left
        exact ⟨falls, rfl, started, erangeEq.trans (by rw [cleared]; rfl), runs, accepted⟩
      · exact Or.inr refused
  · have noOverflow : bodyLengthOverflows args s byte = false := by
      simp [bodyLengthOverflows, delimiter]
    have nextEq : next = _ := findingBodyLength_of_ne (Ne.symm delimiter)
    rw [if_neg atEnd] at nextEq
    rw [nextEq, noOverflow, Bool.or_false]
    split
    · rename_i digit
      refine ⟨rfl, rfl, Or.inr ⟨rfl, by simp [finding], fun _ => ?_⟩⟩
      exact consistent.digit finding inside digit (Ne.symm delimiter)
    · refine ⟨rfl, rfl, Or.inr ⟨rfl, by simp, fun _ => ?_⟩⟩
      exact consistent.restart rfl rfl (by simpa using room) rfl

end

theorem findingBeginString_cases (args : SplitterArgs) (byte : UInt8) (s : Splitter) :
    (findingBeginString args byte s = ({ s with l := 0, state := .findingBodyLength }, true)) ∨
      ∃ l, findingBeginString args byte s = ({ s with l := l }, false) := by
  unfold findingBeginString
  split_ifs
  · exact Or.inr ⟨_, rfl⟩
  · exact Or.inl rfl
  · exact Or.inr ⟨_, rfl⟩
  · exact Or.inr ⟨_, rfl⟩

theorem headerByte_of_beginString (phase : s.state = .findingBeginString) (byte : UInt8) :
    headerByte args byte s = if (findingBeginString args byte s).2 then
        findingBodyLength args byte (findingBeginString args byte s).1
      else ((findingBeginString args byte s).1, false) := by
  simp only [headerByte, phase]

theorem headerByte_of_bodyLength (phase : s.state = .findingBodyLength) (byte : UInt8) :
    headerByte args byte s = findingBodyLength args byte s := by
  simp only [headerByte, phase]

theorem headerByte_of_copying (phase : s.state = .copyingBody)
    (byte : UInt8) : headerByte args byte s = (s, true) := by
  simp only [headerByte, phase]

theorem headerByte_sound (consistent : Consistent args s)
    (noFault : s.fault = none) (header : s.state ≠ .copyingBody) (byte : UInt8) :
    let next := headerByte args byte s
    next.1.expected = s.expected ∧
      next.1.erange = (s.erange || bodyLengthOverflows args s byte) ∧
      (next.2 = true ∧ byte = args.soh ∧ s.state = .findingBodyLength ∧
          next.1.erange = false ∧ next.1.fault = none ∧
          Accepted args next.1 ∨
        next.2 = false ∧ next.1.state ≠ .copyingBody ∧ Sound args next.1) := by
  intro next
  cases phase : s.state with
  | copyingBody => exact absurd phase header
  | findingBodyLength =>
    have nextEq : next = findingBodyLength args byte s := headerByte_of_bodyLength phase byte
    obtain ⟨expectedEq, erangeEq, result⟩ := findingBodyLength_sound consistent noFault phase byte
    rw [nextEq]
    refine ⟨expectedEq, erangeEq, ?_⟩
    rcases result with ⟨falls, delimiter, _, rest⟩ | refused
    · exact Or.inl ⟨falls, delimiter, rfl, rest⟩
    · exact Or.inr refused
  | findingBeginString =>
    have noOverflow : bodyLengthOverflows args s byte = false := by
      simp [bodyLengthOverflows, phase]
    rw [noOverflow, Bool.or_false]
    rcases findingBeginString_cases args byte s with found | ⟨l, searching⟩
    · have nextEq : next = findingBodyLength args byte
          { s with l := 0, state := .findingBodyLength } := by
        simp only [next, headerByte_of_beginString phase, found, if_true]
      obtain ⟨expectedEq, erangeEq, result⟩ :=
        findingBodyLength_sound consistent.enter noFault rfl byte
      rw [nextEq]
      refine ⟨expectedEq, ?_, ?_⟩
      · rw [erangeEq]
        simp [bodyLengthOverflows]
      · rcases result with ⟨_, _, impossible, _⟩ | refused
        · exact absurd impossible (Nat.lt_irrefl 0)
        · exact Or.inr refused
    · have nextEq : next = ({ s with l := l }, false) := by
        simp only [next, headerByte_of_beginString phase, searching]
        rfl
      rw [nextEq]
      refine ⟨rfl, rfl, Or.inr ⟨rfl, header, fun _ => ?_⟩⟩
      exact consistent.restart rfl rfl consistent.lengthStr phase

theorem writeHeader_counters (text : List UInt8) (offset : Nat) (header : s.state ≠ .copyingBody) :
    (writeHeader args text { s with offset := offset }).map Splitter.settled id =
      (writeHeader args text s).map Splitter.settled id := by
  unfold writeHeader
  dsimp only
  split
  · simp [Splitter.settled, header]
  · simp [Splitter.settled]

theorem acceptBodyLength_counters (bodyLength : Nat) (text : List UInt8)
    (bytesLeft offset : Nat) (header : s.state ≠ .copyingBody) :
    (acceptBodyLength args bodyLength text
        { s with bytesLeftToCopy := bytesLeft, offset := offset }).map
        Splitter.settled id =
      (acceptBodyLength args bodyLength text s).map Splitter.settled id := by
  by_cases room : messageSize args bodyLength text ≤ s.delta.size ∨
      args.mallocSucceeds s.mallocs = true
  · rw [acceptBodyLength_of_room room, acceptBodyLength_of_room
      (s := { s with bytesLeftToCopy := bytesLeft, offset := offset }) room]
    exact writeHeader_counters (s := s.reserve args bodyLength text) text offset header
  · rw [not_or, Bool.not_eq_true, not_le] at room
    rw [acceptBodyLength_of_mallocFails room.1 room.2, acceptBodyLength_of_mallocFails
        (s := { s with bytesLeftToCopy := bytesLeft, offset := offset }) room.1 room.2]
    rfl

theorem findingBodyLength_counters (byte : UInt8) (bytesLeft offset : Nat)
    (header : s.state ≠ .copyingBody) :
    (findingBodyLength args byte { s with bytesLeftToCopy := bytesLeft, offset := offset }).map
        Splitter.settled id =
      (findingBodyLength args byte s).map Splitter.settled id := by
  unfold findingBodyLength
  dsimp only
  split_ifs
  · simp [Splitter.settled]
  · simp [Splitter.settled]
  · simp [Splitter.settled, header]
  · simp [Splitter.settled]
  · set lengthStr := (s.lengthStr.set s.l byte).set s.l 0
    exact acceptBodyLength_counters (s := { s with
        lengthStr := lengthStr, l := 0
        erange := s.erange || (atoll (cString lengthStr)).2 })
      _ _ bytesLeft offset header

theorem findingBeginString_counters (byte : UInt8) (bytesLeft offset : Nat) :
    findingBeginString args byte { s with bytesLeftToCopy := bytesLeft, offset := offset } =
      ({ (findingBeginString args byte s).1 with
          bytesLeftToCopy := bytesLeft, offset := offset },
        (findingBeginString args byte s).2) := by
  unfold findingBeginString
  split_ifs <;> rfl

theorem headerByte_settled (args : SplitterArgs) (s : Splitter) (byte : UInt8) :
    (headerByte args byte s.settled).map Splitter.settled id =
      (headerByte args byte s).map Splitter.settled id := by
  cases phase : s.state with
  | copyingBody => rw [Splitter.settled, if_pos phase]
  | findingBodyLength =>
    have header : s.state ≠ .copyingBody := by simp [phase]
    rw [Splitter.settled, if_neg header, headerByte_of_bodyLength phase,
      headerByte_of_bodyLength (s := { s with bytesLeftToCopy := 0, offset := 0 }) phase]
    exact findingBodyLength_counters byte 0 0 header
  | findingBeginString =>
    have header : s.state ≠ .copyingBody := by simp [phase]
    rw [Splitter.settled, if_neg header, headerByte_of_beginString phase,
      headerByte_of_beginString (s := { s with bytesLeftToCopy := 0, offset := 0 }) phase,
      findingBeginString_counters]
    rcases findingBeginString_cases args byte s with found | ⟨l, searching⟩
    · simp only [found, if_true]
      exact findingBodyLength_counters
        (s := { s with l := 0, state := .findingBodyLength }) byte 0 0
        (by simp)
    · simp [searching, Splitter.settled, phase]

end Header

end MercuryFix
