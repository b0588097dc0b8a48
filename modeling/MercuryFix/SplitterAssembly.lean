import MercuryFix.SplitterDelivery

/-!
# A well-formed message is assembled byte for byte

The splitter is at rest when it looks for the first byte of a begin string with
`errno` clear.  From there the bytes of a well-formed message take it through
the begin string, the BodyLength digits and the body to the message-complete
branch, with exactly these bytes in the delta entry.
-/

namespace MercuryFix

open DecimalText ByteBlock

variable {args : SplitterArgs} {s : Splitter}

/-- The splitter between two messages. -/
structure AtRest (args : SplitterArgs) (s : Splitter) : Prop where
  consistent : Consistent args s
  noFault : s.fault = none
  searching : s.state = .findingBeginString
  atStart : s.l = 0
  clear : s.erange = false

/-- The begin string consists of plain ASCII characters. -/
def SplitterArgs.Plain (args : SplitterArgs) : Prop := ∀ byte ∈ args.beginString, byte.toNat < 128

section BeginString

def Splitter.matching (s : Splitter) (l : Nat) : Splitter :=
  { s with l := l, bytesLeftToCopy := 0, offset := 0 }

theorem settled_of_searching (searching : s.state = .findingBeginString)
    (l : Nat) : ({ s with l := l } : Splitter).settled = s.matching l := by
  unfold Splitter.settled
  rw [if_neg (by simp [searching])]
  rfl

theorem beginChar_of_inside {l : Nat} {character : UInt8}
    (inside : args.beginString[l]? = some character) :
    args.beginChar l = character := by
  unfold SplitterArgs.beginChar
  rw [inside]

theorem beginChar_at_end : args.beginChar args.beginString.length = 0 := by
  unfold SplitterArgs.beginChar
  rw [List.getElem?_eq_none (le_refl _)]
  exact if_pos rfl

theorem splitByte_matching (noFault : s.fault = none)
    (searching : s.state = .findingBeginString) {l : Nat} {byte : UInt8}
    (inside : args.beginString[l]? = some byte) (plain : byte.toNat < 128) :
    splitByte args (s.matching l) byte = (s.matching (l + 1), []) := by
  have matched : findingBeginString args byte (s.matching l) =
      ({ s.matching l with l := l + 1 }, false) := by
    have equal : charEqByte (args.beginChar (s.matching l).l) byte = true := by
      change charEqByte (args.beginChar l) byte = true
      rw [beginChar_of_inside inside]
      exact charEqByte_iff.mpr ⟨rfl, plain⟩
    exact if_pos equal
  have refused : headerByte args byte (s.matching l) =
      ({ s.matching l with l := l + 1 }, false) := by
    rw [headerByte_of_beginString (s := s.matching l) searching, matched]
    rfl
  rw [splitByte_of_moved (progress_of_refused (s := s.matching l) noFault
    (by rw [refused])), refused,
    settled_of_searching (s := s.matching l) searching]
  rfl

theorem splitBytes_matching (noFault : s.fault = none)
    (searching : s.state = .findingBeginString) (plain : args.Plain)
    {here behind : List UInt8} {l : Nat} (from_l : args.beginString.drop l = here ++ behind) :
    splitBytes args (s.matching l) here = (s.matching (l + here.length), []) := by
  induction here generalizing l with
  | nil => rfl
  | cons byte here induction =>
    have first : args.beginString[l]? = some byte := by
      rw [← List.head?_drop, from_l]
      rfl
    have later : args.beginString.drop (l + 1) = here ++ behind := by
      rw [← List.drop_drop, from_l]
      rfl
    rw [splitBytes_cons, splitByte_matching noFault searching first
      (plain byte (List.mem_of_getElem? first)), induction later,
      List.length_cons, Nat.add_right_comm, Nat.add_assoc]
    rfl

theorem splitBytes_beginString (noFault : s.fault = none)
    (searching : s.state = .findingBeginString) (plain : args.Plain)
    {rest : List UInt8} {l : Nat} (from_l : args.beginString.drop l = rest)
    (inside : l ≤ args.beginString.length) :
    splitBytes args (s.matching l) rest = (s.matching args.beginString.length, []) := by
  have atEnd : l + rest.length = args.beginString.length := by
    rw [← from_l, List.length_drop]
    omega
  rw [splitBytes_matching noFault searching plain (by rw [from_l, List.append_nil]), atEnd]

end BeginString

section Digits

def Splitter.counting (s : Splitter) (text : List UInt8) : Splitter :=
  { s with
    state := .findingBodyLength
    l := text.length
    lengthStr := text ++ s.lengthStr.drop text.length
    bytesLeftToCopy := 0
    offset := 0 }

theorem set_behind {front back : List UInt8} {byte : UInt8} (room : front.length < back.length) :
    (front ++ back.drop front.length).set front.length byte =
      (front ++ [byte]) ++ back.drop (front ++ [byte]).length := by
  have next : back.drop front.length = back[front.length] :: back.drop (front.length + 1) :=
    List.drop_eq_getElem_cons room
  rw [List.set_append_right _ _ (le_refl _), Nat.sub_self, next,
    List.set_cons_zero, List.length_append, List.length_singleton]
  simp

theorem settled_findingBodyLength {text : List UInt8} {digit : UInt8}
    (room : s.lengthStr.length = 32) (short : text.length < 21)
    (isDigit : isDigit digit = true) (other : args.soh ≠ digit) :
    (findingBodyLength args digit (s.counting text)).2 = false ∧
      (findingBodyLength args digit (s.counting text)).1.settled =
        s.counting (text ++ [digit]) := by
  have notEnd : ¬ (s.counting text).l = 21 := by
    change ¬ text.length = 21
    omega
  rw [findingBodyLength_of_ne other, if_neg notEnd, if_pos isDigit]
  refine ⟨rfl, ?_⟩
  rw [Splitter.settled, if_neg (by simp [Splitter.counting])]
  simp only [Splitter.counting, set_behind (room ▸ by omega :
    text.length < s.lengthStr.length), List.length_append,
    List.length_singleton]

theorem splitByte_firstDigit (noFault : s.fault = none) (searching : s.state = .findingBeginString)
    (room : s.lengthStr.length = 32) {digit : UInt8}
    (isDigit : isDigit digit = true) (other : args.soh ≠ digit) :
    splitByte args (s.matching args.beginString.length) digit = (s.counting [digit], []) := by
  have nonzero : digit ≠ 0 := by
    rintro rfl
    exact absurd isDigit (by decide)
  have found : findingBeginString args digit
      (s.matching args.beginString.length) = (s.counting [], true) := by
    unfold findingBeginString
    change (if charEqByte (args.beginChar args.beginString.length) digit then _
      else if (args.beginChar args.beginString.length == 0 && _) = true then _
      else _) = _
    rw [beginChar_at_end, if_neg, if_pos]
    · rfl
    · simpa using isDigit
    · rw [charEqByte_iff]
      rintro ⟨equal, _⟩
      exact nonzero equal.symm
  have none_yet : ([] : List UInt8).length < 21 := by decide
  obtain ⟨refused, next⟩ := settled_findingBodyLength room none_yet isDigit other
  have header : headerByte args digit (s.matching args.beginString.length) =
      findingBodyLength args digit (s.counting []) := by
    rw [headerByte_of_beginString (s := s.matching args.beginString.length) searching, found]
    rfl
  rw [splitByte_of_moved (progress_of_refused (s := s.matching args.beginString.length) noFault
    (by rw [header]; exact refused)), header, next]
  rfl

theorem splitByte_digit (noFault : s.fault = none)
    (room : s.lengthStr.length = 32) {text : List UInt8} {digit : UInt8}
    (short : text.length < 21) (isDigit : isDigit digit = true) (other : args.soh ≠ digit) :
    splitByte args (s.counting text) digit = (s.counting (text ++ [digit]), []) := by
  obtain ⟨refused, next⟩ := settled_findingBodyLength room short isDigit other
  have header : headerByte args digit (s.counting text) =
      findingBodyLength args digit (s.counting text) :=
    headerByte_of_bodyLength rfl digit
  rw [splitByte_of_moved (progress_of_refused (s := s.counting text) noFault
    (by rw [header]; exact refused)), header, next]

theorem splitBytes_digits (noFault : s.fault = none)
    (room : s.lengthStr.length = 32) {text more : List UInt8}
    (short : text.length + more.length ≤ 21) (digits : LengthDigits args more) :
    splitBytes args (s.counting text) more = (s.counting (text ++ more), []) := by
  induction more generalizing text with
  | nil =>
    rw [List.append_nil]
    rfl
  | cons digit more induction =>
    rw [List.length_cons] at short
    have rest : LengthDigits args more :=
      ⟨fun byte member => digits.digits byte (List.mem_cons_of_mem _ member),
        fun member => digits.closed (List.mem_cons_of_mem _ member)⟩
    have other : args.soh ≠ digit := fun equal =>
      digits.closed (equal ▸ List.mem_cons_self)
    have one_more : (text ++ [digit]).length + more.length ≤ 21 := by
      rw [List.length_append, List.length_singleton]
      omega
    have later := induction one_more rest
    rw [splitBytes_cons, splitByte_digit noFault room (by omega)
      (digits.digits digit List.mem_cons_self) other, later]
    simp

end Digits

section Body

theorem Ready.copiedAll_assembled {byte : UInt8} {rest : List UInt8} (ready : Ready args byte s)
    (whole : rest.length + 1 = s.bytesLeftToCopy) :
    Assembled args (s.copiedAll (byte :: rest)) := by
  induction rest generalizing s byte with
  | nil => exact ready.copied_assembled (by simpa using whole.symm)
  | cons next rest induction =>
    rw [List.length_cons] at whole
    rw [copiedAll_cons]
    apply induction (ready.copied_ready (by omega) next)
    simp only [Splitter.copied]
    omega

variable {message : FixMessage args.soh}

theorem FixMessage.digits_ne_nil {soh : UInt8} (message : FixMessage soh) :
    message.digits ≠ [] := by
  intro empty
  have counts := message.counts
  rw [empty] at counts
  simp [value] at counts

theorem bodyLengthText_counting {text : List UInt8} : (s.counting text).bodyLengthText = text :=
  List.take_left

theorem bodyLengthAccepted_counting (noFault : s.fault = none)
    (clear : s.erange = false) (short : message.digits.length ≤ 20)
    (small : (message.bytes args.beginString).length < 2 ^ 32) :
    bodyLengthAccepted args (s.counting message.digits) args.soh = true := by
  have counts : value message.digits = message.body.length := message.counts
  have positive : 0 < message.body.length := by
    simp [FixMessage.body]
  rw [message.length_bytes] at small
  have notEnd : (s.counting message.digits).l ≠ 21 := by
    change message.digits.length ≠ 21
    omega
  apply decide_eq_true
  rw [bodyLengthText_counting]
  exact ⟨noFault, rfl, notEnd, rfl, clear, by omega, by omega⟩

theorem unwrappedSize_counting :
    unwrappedSize args (s.counting message.digits) ≤ (message.bytes args.beginString).length := by
  have counts : value message.digits = message.body.length := message.counts
  have wraps := Nat.mod_le (value message.digits) (2 ^ 32)
  rw [message.length_bytes, unwrappedSize, bodyLengthText_counting]
  omega

theorem take_offset_opened : (s.opened args).delta.data.take (s.opened args).offset =
      args.beginString ++ s.bodyLengthText := by
  have width : (s.opened args).offset = 0 + (args.beginString ++ s.bodyLengthText).length := by
    rw [List.length_append, Nat.zero_add]
    rfl
  rw [width]
  exact take_blit (Nat.zero_le _)

theorem splitBytes_behindDigits (mallocs : ∀ count, args.mallocSucceeds count = true)
    (consistent : Consistent args (s.counting message.digits))
    (noFault : s.fault = none) (clear : s.erange = false)
    (short : message.digits.length ≤ 20)
    (small : (message.bytes args.beginString).length < 2 ^ 32) :
    ∃ found, Holding args message found ∧ found.expected = s.expected ∧
      found.erange = false ∧ found.l = 0 ∧
      splitBytes args (s.counting message.digits)
          (args.soh :: (message.body ++ message.trailer args.beginString)) =
        ((handled args found).settled, messageEffects args found) := by
  have accepted := bodyLengthAccepted_counting noFault clear short small
  have counts : value message.digits = message.body.length := message.counts
  have size := message.length_bytes args.beginString
  obtain ⟨header, _, left⟩ := headerByte_of_accepted mallocs consistent accepted
    (unwrappedSize_counting.trans_lt small)
  have accepts : (headerByte args args.soh (s.counting message.digits)).2 = true := by
    rw [header]
  obtain ⟨ready, expected, erange, _, _⟩ := headerByte_ready consistent noFault accepts
  rw [header] at ready expected erange
  dsimp only at ready expected erange
  have covered := ready.covered
  have room := ready.room
  have whole : (message.body ++ message.trailer args.beginString).length + 1 =
      ((s.counting message.digits).opened args).bytesLeftToCopy := by
    rw [left, bodyLengthText_counting, List.length_append, message.length_trailer]
    omega
  have fits : ((s.counting message.digits).opened args).offset + (args.soh ::
      (message.body ++ message.trailer args.beginString)).length ≤
        ((s.counting message.digits).opened args).delta.data.length := by
    rw [List.length_cons, whole]
    omega
  have copied := copiedAll_eq fits
  refine ⟨((s.counting message.digits).opened args).copiedAll (args.soh ::
    (message.body ++ message.trailer args.beginString)),
    ⟨ready.copiedAll_assembled whole, ?_⟩, ?_, ?_, ?_, ?_⟩
  · have sizeEq : ((s.counting message.digits).opened args).delta.size =
        ((s.counting message.digits).opened args).offset + (args.soh ::
          (message.body ++ message.trailer args.beginString)).length := by
      rw [List.length_cons, whole]
      exact covered.symm
    rw [copied]
    change (blit _ _ _).take ((s.counting message.digits).opened args).delta.size = _
    rw [sizeEq, take_blit (by omega), take_offset_opened,
      bodyLengthText_counting, FixMessage.bytes, FixMessage.summed]
    simp
  · rw [copied]
    exact expected
  · rw [copied]
    exact erange.trans clear
  · rw [copied]
    rfl
  · rw [← Ready.splitBytes_header (s := s.counting message.digits) noFault
      accepts (by rw [header]; exact ready), header]
    exact ready.splitBytes_whole whole

theorem AtRest.assembles (rest : AtRest args s) (mallocs : ∀ count,
      args.mallocSucceeds count = true) (plain : args.Plain)
    (short : message.digits.length ≤ 20)
    (small : (message.bytes args.beginString).length < 2 ^ 32) :
    ∃ found, Holding args message found ∧ found.expected = s.expected ∧
      found.erange = false ∧ found.l = 0 ∧
      splitBytes args s (message.bytes args.beginString) =
        ((handled args found).settled, messageEffects args found) := by
  obtain ⟨digit, digits, digitsEq⟩ := List.exists_cons_of_ne_nil message.digits_ne_nil
  have areDigits : LengthDigits args (digit :: digits) := by
    rw [← digitsEq]
    exact ⟨message.areDigits, message.closed⟩
  have other : args.soh ≠ digit := fun equal =>
    areDigits.closed (equal ▸ List.mem_cons_self)
  have later : LengthDigits args digits :=
    ⟨fun byte member => areDigits.digits byte (List.mem_cons_of_mem _ member),
      fun member => areDigits.closed (List.mem_cons_of_mem _ member)⟩
  have lengthStr := rest.consistent.lengthStr
  have room : [digit].length + digits.length ≤ 21 := by
    rw [digitsEq, List.length_cons] at short
    simp
    omega
  have start : s.settled = s.matching 0 := by
    rw [← settled_of_searching rest.searching, ← rest.atStart]
  have toDigits : splitBytes args (s.matching 0)
      (args.beginString ++ digit :: digits) = (s.counting message.digits, []) := by
    rw [splitBytes, MealyMachine.run_append, ← splitBytes, ← splitBytes,
      splitBytes_beginString rest.noFault rest.searching plain (List.drop_zero) (Nat.zero_le _)]
    rw [splitBytes_cons, splitByte_firstDigit rest.noFault rest.searching
      lengthStr (areDigits.digits digit List.mem_cons_self) other,
      splitBytes_digits rest.noFault lengthStr room later, digitsEq]
    rfl
  have counting : Consistent args (s.counting message.digits) := by
    have settled : Sound args (s.matching 0) := start ▸ fun _ => rest.consistent.settled
    have sound := splitBytes_sound settled (args.beginString ++ digit :: digits)
    rw [toDigits] at sound
    exact sound rest.noFault
  obtain ⟨found, holding, expected, clear, atStart, runs⟩ :=
    splitBytes_behindDigits mallocs counting rest.noFault rest.clear short small
  refine ⟨found, holding, expected, clear, atStart, ?_⟩
  have whole : message.bytes args.beginString = (args.beginString ++ digit :: digits) ++
        (args.soh :: (message.body ++ message.trailer args.beginString)) := by
    rw [FixMessage.bytes, FixMessage.summed, digitsEq]
    simp
  have settled : splitBytes args s.settled (message.bytes args.beginString) =
      splitBytes args s (message.bytes args.beginString) := by
    cases bytesEq : message.bytes args.beginString with
    | nil =>
      have size := message.length_bytes args.beginString
      rw [bytesEq] at size
      simp at size
    | cons byte bytes =>
      exact splitBytes_settled rest.consistent rest.noFault byte bytes
  rw [← settled, start, whole, splitBytes, MealyMachine.run_append]
  rw [splitBytes] at toDigits runs
  rw [toDigits, runs]
  rfl

theorem AtRest.delivers (rest : AtRest args s) (mallocs : ∀ count,
      args.mallocSucceeds count = true) (plain : args.Plain)
    (short : message.digits.length ≤ 20)
    (small : (message.bytes args.beginString).length < 2 ^ 32)
    (carries : CarriesNumber args.soh (message.bytes args.beginString) s.next)
    (below : s.next ≠ 2 ^ 64 - 1) (fits : ¬ OversizedSession args message) :
    ∃ behind, AtRest args behind ∧ behind.expected = s.next ∧
      splitBytes args s (message.bytes args.beginString) =
        (behind, deliveredEffects args message s.next) := by
  obtain ⟨found, holding, expected, clear, atStart, runs⟩ :=
    rest.assembles mallocs plain short small
  have next : s.next = found.next := by
    rw [Splitter.next, Splitter.next, expected]
  obtain ⟨delta, complete⟩ := holding.complete_delivered carries next below fits
  have sound := splitBytes_sound (fun _ => rest.consistent) (message.bytes args.beginString)
  have handledEq : handled args found =
      { (found.counted s.next) with delta := delta }.restarted := by
    rw [handled, complete]
  rw [runs] at sound ⊢
  have noFault : (handled args found).settled.fault = none := by
    rw [Splitter.settled_fault, handledEq]
    exact holding.noFault
  refine ⟨(handled args found).settled, ⟨sound noFault, noFault, ?_, ?_, ?_⟩, ?_, ?_⟩
  · rw [Splitter.settled_state, handled_state]
  · rw [Splitter.settled_l, handledEq]
    exact atStart
  · rw [Splitter.settled_erange, handledEq]
    exact clear
  · rw [Splitter.settled_expected, handledEq]
    rfl
  · rw [messageEffects, complete]

end Body

end MercuryFix
