import MercuryFix.FixMessageCompletion
import MercuryFix.SplitterAssembly

/-!
# From the sender to the receiver

The messages that `complete_FIX_message` makes of valid partial messages are
well formed, and the splitter delivers a stream of them one by one.
-/

namespace MercuryFix

open DecimalText ByteBlock

/-- A partial message as the comment on `complete_FIX_message` asks for it. -/
structure PartialMessage (soh : UInt8) extends PushRequest where
  begins : data.head? = some soh
  ends : soh :: ascii ['1', '0', '='] <:+ data
  typed : msgType ≠ []
  short : msgType.length < msgTypeMaxLength
  delimited : soh ∉ msgType

/-- What `snprintf` makes of the format `8=%s%c9=`, read as a C string. -/
def fixStartBytes (version : List UInt8) (soh : UInt8) : List UInt8 :=
  cString (ascii ['8', '='] ++ version ++ soh :: ascii ['9', '='] ++ [0])

section Text

variable {soh : UInt8}

theorem bodyLengthOf_eq {msgType : List UInt8} {number msgLength : Nat}
    (numberFits : number < 2 ^ 64) (short : msgType.length < msgTypeMaxLength)
    (small : msgLength < 2 ^ 32) (enough : 3 ≤ msgLength) :
    bodyLengthOf msgType number msgLength =
      7 + msgType.length + (render number).length + (msgLength - 3) := by
  have count : (render number).length ≤ 20 := (length_render_le_iff (by omega)).mpr (by omega)
  have typeField : msgTypeMaxLength = 16 := rfl
  rw [bodyLengthOf, getDigitCount_eq numberFits]
  omega

namespace PartialMessage

variable (message : PartialMessage soh)

def fields : List UInt8 := message.data.take (message.data.length - 3)

theorem length_ends : 4 ≤ message.data.length := by
  have shorter := message.ends.length_le
  simpa [ascii] using shorter

theorem data_eq : message.data = message.fields ++ ascii ['1', '0', '='] := by
  obtain ⟨front, whole⟩ := message.ends
  have width : message.data.length = front.length + 1 + 3 := by
    rw [← whole]
    simp [ascii]
  have split : message.data = (front ++ [soh]) ++ ascii ['1', '0', '='] := by
    rw [← whole]
    simp
  have fieldsEq : message.fields = front ++ [soh] := by
    rw [fields, width]
    conv_lhs => rw [split]
    rw [Nat.add_sub_cancel]
    exact List.take_left' (by simp)
  rw [fieldsEq]
  exact split

theorem getLast?_fields : message.fields.getLast? = some soh := by
  obtain ⟨front, whole⟩ := message.ends
  have split : (front ++ [soh]) ++ ascii ['1', '0', '='] =
      message.fields ++ ascii ['1', '0', '='] := by
    rw [← message.data_eq, ← whole]
    simp
  rw [← List.append_cancel_right split]
  simp

theorem fields_eq_cons : ∃ rest, message.fields = soh :: rest := by
  have enough := message.length_ends
  have first : message.fields.head? = some soh := by
    rw [fields, List.head?_take, if_neg (by omega)]
    exact message.begins
  cases fieldsEq : message.fields with
  | nil =>
    rw [fieldsEq] at first
    cases first
  | cons head rest =>
    rw [fieldsEq, List.head?_cons, Option.some.injEq] at first
    exact ⟨rest, by rw [first]⟩

theorem closed_render (notDigit : isDigit soh = false) (number : Nat) : soh ∉ render number := by
  intro member
  rw [isDigit_of_mem_render member] at notDigit
  cases notDigit

theorem counts_sent (small : message.data.length < 2 ^ 32) {number : Nat}
    (numberFits : number < 2 ^ 64) :
    value (render (bodyLengthOf message.msgType number message.data.length)) =
      (ascii ['3', '5', '='] ++ message.msgType ++
        soh :: (ascii ['3', '4', '='] ++ render number ++ message.fields)).length := by
  have enough := message.length_ends
  have width : message.fields.length = message.data.length - 3 := by
    rw [fields, List.length_take]
    omega
  rw [value_render, bodyLengthOf_eq numberFits message.short small (by omega)]
  simp [ascii, width]
  omega

def sent (notDigit : isDigit soh = false) (small : message.data.length < 2 ^ 32)
    (number : Fin (2 ^ 64)) : FixMessage soh where
  digits := render (bodyLengthOf message.msgType number message.data.length)
  msgType := message.msgType
  fields := ascii ['3', '4', '='] ++ render number ++ message.fields
  areDigits := fun _ member => isDigit_of_mem_render member
  closed := closed_render notDigit _
  typed := message.typed
  delimited := message.delimited
  ends := by
    right
    rw [List.getLast?_append, message.getLast?_fields]
    rfl
  counts := message.counts_sent small number.isLt

theorem completedText_eq (args : PusherArgs)
    (message : PartialMessage args.soh) (notDigit : isDigit args.soh = false)
    (small : message.data.length < 2 ^ 32) (number : Fin (2 ^ 64)) :
    completedText args message.msgType message.data number =
      (message.sent notDigit small number).bytes args.fixStart := by
  have unchanged : message.data.set 0 args.soh = message.data := by
    have first := message.begins
    cases dataEq : message.data with
    | nil =>
      rw [dataEq] at first
      cases first
    | cons head rest =>
      rw [dataEq, List.head?_cons, Option.some.injEq] at first
      rw [List.set_cons_zero, first]
  have unchecked : uncheckedText args message.msgType message.data number =
      (message.sent notDigit small number).summed args.fixStart ++ ascii ['1', '0', '='] := by
    rw [uncheckedText, unchanged, headerText, FixMessage.summed, FixMessage.body, sent]
    dsimp only
    generalize bodyLengthOf message.msgType number message.data.length = length
    rw [message.data_eq]
    simp
  have summed : (uncheckedText args message.msgType message.data number).take
      ((uncheckedText args message.msgType message.data number).length - 3) =
        (message.sent notDigit small number).summed args.fixStart := by
    rw [unchecked, List.length_append]
    exact List.take_left' (by simp [ascii])
  rw [completedText, summed, unchecked, FixMessage.bytes, FixMessage.trailer]
  simp

end PartialMessage

end Text

section Number

variable {soh : UInt8}

/-- A field that does not look like the number field. -/
structure Unlike (soh : UInt8) (field : List UInt8) : Prop where
  closed : soh ∉ field
  tagged : ¬ ascii ['3', '4', '='] <+: field
  text : soh = 61 → field ≠ ascii ['3', '4']

theorem Unlike.not_prefix {field : List UInt8} (unlike : Unlike soh field)
    (notDigit : isDigit soh = false) (rest : List UInt8) :
    ¬ seqnumTag soh <+: soh :: (field ++ soh :: rest) := by
  have notThree : soh ≠ 51 := by
    rintro rfl
    exact absurd notDigit (by decide)
  have notFour : soh ≠ 52 := by
    rintro rfl
    exact absurd notDigit (by decide)
  have tag : seqnumTag soh = soh :: [51, 52, 61] := rfl
  have number : ascii ['3', '4', '='] = [51, 52, 61] := rfl
  have tagged := unlike.tagged
  have text := unlike.text
  rw [tag, List.cons_prefix_cons]
  rintro ⟨_, starts⟩
  rw [number] at tagged
  match field with
  | [] =>
    rw [List.nil_append, List.cons_prefix_cons] at starts
    exact notThree starts.1.symm
  | [first] =>
    simp only [List.cons_append, List.nil_append, List.cons_prefix_cons] at starts
    exact notFour starts.2.1.symm
  | [first, second] =>
    simp only [List.cons_append, List.nil_append, List.cons_prefix_cons] at starts
    obtain ⟨rfl, rfl, equals, _⟩ := starts
    exact text equals.symm rfl
  | first :: second :: third :: more =>
    simp only [List.cons_append, List.cons_prefix_cons] at starts
    obtain ⟨rfl, rfl, rfl, _⟩ := starts
    exact tagged ⟨more, rfl⟩

theorem memmem_seqnumTag (notDigit : isDigit soh = false)
    {fields : List (List UInt8)} (unlike : ∀ field ∈ fields, Unlike soh field)
    (rest : List UInt8) :
    memmem (seqnumTag soh) (fields.flatMap (fun field => soh :: field) ++ (seqnumTag soh ++ rest)) =
      some (fields.flatMap fun field => soh :: field).length := by
  induction fields with
  | nil => exact memmem_of_here (List.prefix_append _ _)
  | cons field fields induction =>
    have later := induction fun other member =>
      unlike other (List.mem_cons_of_mem _ member)
    have first := unlike field List.mem_cons_self
    obtain ⟨behind, behindEq⟩ : ∃ behind,
        fields.flatMap (fun field => soh :: field) ++ (seqnumTag soh ++ rest) = soh :: behind := by
      cases fields with
      | nil => exact ⟨_, rfl⟩
      | cons next fields => exact ⟨_, rfl⟩
    rw [List.flatMap_cons, List.append_assoc, behindEq, List.cons_append,
      memmem_step (first.not_prefix notDigit behind), seqnumTag,
      memmem_skip first.closed, ← seqnumTag, ← behindEq, later]
    simp
    omega

theorem fixStartBytes_of_nul {version : List UInt8} (noNul : (0 : UInt8) ∉ version) :
    fixStartBytes version 0 = ascii ['8', '='] ++ version := by
  rw [fixStartBytes, List.append_assoc]
  apply cString_of_noNul
  simp [ascii, noNul]

theorem fixStartBytes_of_ne_nul {version : List UInt8}
    (noNul : (0 : UInt8) ∉ version) (printed : soh ≠ 0) :
    fixStartBytes version soh = ascii ['8', '='] ++ version ++ soh :: ascii ['9', '='] := by
  apply cString_of_noNul
  simp [ascii, noNul, printed.symm]

/-- The header of a message whose delimiter may be any byte but a digit: when
it is the equals sign, no value in it may be the text of the number's tag. -/
theorem header_fields {version digits msgType : List UInt8}
    (notDigit : isDigit soh = false) (noNul : (0 : UInt8) ∉ version)
    (versionClosed : soh ∉ version) (typeClosed : soh ∉ msgType)
    (areDigits : ∀ byte ∈ digits, isDigit byte = true)
    (distinct : soh = 61 → version ≠ ascii ['3', '4'] ∧
      digits ≠ ascii ['3', '4'] ∧ msgType ≠ ascii ['3', '4']) :
    ∃ (first : List UInt8) (fields : List (List UInt8)), soh ∉ first ∧
      (∀ field ∈ fields, Unlike soh field) ∧
      fixStartBytes version soh ++ digits ++ soh :: (ascii ['3', '5', '='] ++ msgType) =
        first ++ fields.flatMap fun field => soh :: field := by
  have digitsClosed : soh ∉ digits := by
    intro member
    rw [areDigits soh member] at notDigit
    cases notDigit
  have notThatDigit : ∀ byte, isDigit byte = true → soh ≠ byte := by
    rintro byte digit rfl
    rw [digit] at notDigit
    cases notDigit
  have eight : soh ≠ 56 := notThatDigit 56 (by decide)
  have nine : soh ≠ 57 := notThatDigit 57 (by decide)
  have three : soh ≠ 51 := notThatDigit 51 (by decide)
  have five : soh ≠ 53 := notThatDigit 53 (by decide)
  by_cases equals : soh = 61
  · obtain ⟨versionText, digitsText, typeText⟩ := distinct equals
    have plainField : ∀ field : List UInt8, soh ∉ field →
        field ≠ ascii ['3', '4'] → Unlike soh field := by
      intro field closed different
      refine ⟨closed, ?_, fun _ => different⟩
      rintro ⟨rest, rfl⟩
      apply closed
      simp [ascii, equals]
    refine ⟨ascii ['8'], [version, ascii ['9'], digits, ascii ['3', '5'], msgType], ?_, ?_, ?_⟩
    · simpa [ascii] using eight
    · intro field member
      simp only [List.mem_cons, List.not_mem_nil, or_false] at member
      rcases member with rfl | rfl | rfl | rfl | rfl
      · exact plainField _ versionClosed versionText
      · exact plainField _ (by simpa [ascii] using nine) (by decide)
      · exact plainField _ digitsClosed digitsText
      · exact plainField _ (by simp [ascii, three, five]) (by decide)
      · exact plainField _ typeClosed typeText
    · rw [fixStartBytes_of_ne_nul noNul (by simp [equals])]
      subst equals
      simp [ascii]
  have typeField : Unlike soh (ascii ['3', '5', '='] ++ msgType) := by
    refine ⟨?_, ?_, fun equal => absurd equal equals⟩
    · simp [ascii, three, five, equals, typeClosed]
    · simp [ascii, List.cons_prefix_cons]
  by_cases nul : soh = 0
  · subst nul
    refine ⟨ascii ['8', '='] ++ version ++ digits, [ascii ['3', '5', '='] ++ msgType], ?_, ?_, ?_⟩
    · simp [ascii, noNul, digitsClosed]
    · intro field member
      rw [List.mem_singleton.mp member]
      exact typeField
    · rw [fixStartBytes_of_nul noNul]
      simp
  · refine ⟨ascii ['8', '='] ++ version, [ascii ['9', '='] ++ digits,
      ascii ['3', '5', '='] ++ msgType], ?_, ?_, ?_⟩
    · simp [ascii, eight, equals, versionClosed]
    · intro field member
      simp only [List.mem_cons, List.not_mem_nil, or_false] at member
      rcases member with rfl | rfl
      · refine ⟨?_, ?_, fun equal => absurd equal equals⟩
        · simp [ascii, nine, equals, digitsClosed]
        · simp [ascii, List.cons_prefix_cons]
      · exact typeField
    · rw [fixStartBytes_of_ne_nul noNul nul]
      simp

end Number

section RoundTrip

variable {args : SplitterArgs} {s : Splitter} {version : List UInt8}

def SplitterArgs.pusher (args : SplitterArgs) : PusherArgs := ⟨args.beginString, args.soh⟩

/-- Both sides were started with the same version and delimiter. -/
structure Agreed (args : SplitterArgs) (version : List UInt8) : Prop where
  noNul : (0 : UInt8) ∉ version
  short : version.length ≤ 26
  closed : args.soh ∉ version
  notDigit : isDigit args.soh = false
  begins : args.beginString = fixStartBytes version args.soh

/-- A message that gets through under its number. -/
structure Transmissible (args : SplitterArgs) (version : List UInt8)
    (message : PartialMessage args.soh) (number : Nat) : Prop where
  counted : number ≠ 2 ^ 64 - 1
  sized : (completedText args.pusher message.msgType message.data number).length < 2 ^ 32
  session : isSessionMessage (lookupMsgtype message.msgType) = true → message.data.length ≤ 244
  distinct : args.soh = 61 → version ≠ ascii ['3', '4'] ∧
    bodyLengthOf message.msgType number message.data.length ≠ 34 ∧
    message.msgType ≠ ascii ['3', '4']

def typeOffset (args : SplitterArgs) (message : PartialMessage args.soh)
    (completed : CompletedMessage) : Nat :=
  args.beginString.length + getDigitCount (bodyLengthOf message.msgType
    completed.msgSeqNumber message.data.length) + 4

def arrival (args : SplitterArgs) (message : PartialMessage args.soh)
    (completed : CompletedMessage) : List Effect :=
  let bytes := completed.bytes
  [.storeRecvMsg completed.msgSeqNumber bytes.length bytes,
    if isSessionMessage (lookupMsgtype message.msgType) then
      .echoCommit bytes.length (typeOffset args message completed) bytes
    else .deltaCommit bytes.length (typeOffset args message completed) bytes]

variable {message : PartialMessage args.soh} {buffer : List UInt8}

theorem carries_sent (agreed : Agreed args version)
    (small : message.data.length < 2 ^ 32) (number : Fin (2 ^ 64))
    (distinct : args.soh = 61 → version ≠ ascii ['3', '4'] ∧
      bodyLengthOf message.msgType number message.data.length ≠ 34 ∧
      message.msgType ≠ ascii ['3', '4']) :
    CarriesNumber args.soh ((message.sent agreed.notDigit small number).bytes
      args.beginString) number := by
  have digitsText : args.soh = 61 → version ≠ ascii ['3', '4'] ∧
      render (bodyLengthOf message.msgType number message.data.length) ≠
        ascii ['3', '4'] ∧ message.msgType ≠ ascii ['3', '4'] := by
    intro equals
    obtain ⟨versionText, length, typeText⟩ := distinct equals
    refine ⟨versionText, ?_, typeText⟩
    intro same
    apply length
    rw [← value_render (bodyLengthOf _ _ _), same]
    rfl
  obtain ⟨first, fields, closed, unlike, header⟩ := header_fields
    agreed.notDigit agreed.noNul agreed.closed message.delimited
    (fun _ member => isDigit_of_mem_render member) digitsText
  obtain ⟨rest, fieldsEq⟩ := message.fields_eq_cons
  have whole : (message.sent agreed.notDigit small number).bytes args.beginString =
        (first ++ fields.flatMap fun field => args.soh :: field) ++
          seqnumTag args.soh ++ render number ++ args.soh :: (rest ++
            (message.sent agreed.notDigit small number).trailer args.beginString) := by
    rw [← header, ← agreed.begins, FixMessage.bytes, FixMessage.summed, FixMessage.body]
    simp [PartialMessage.sent, seqnumTag, fieldsEq]
  refine ⟨_, render number, _, whole, ?_, render_ne_nil _,
    fun _ member => isDigit_of_mem_render member, ?_, value_render _⟩
  · rw [whole, List.append_assoc, List.append_assoc, List.append_assoc, seqnumTag,
      memmem_skip closed, ← seqnumTag, memmem_seqnumTag agreed.notDigit unlike]
    simp [Nat.add_comm]
  · intro member
    have notDigit := agreed.notDigit
    rw [isDigit_of_mem_render member] at notDigit
    cases notDigit

theorem length_le_completedText (pusher : PusherArgs)
    (msgType partialMsg : List UInt8) (number : Nat) :
    partialMsg.length ≤ (completedText pusher msgType partialMsg number).length := by
  simp [completedText, uncheckedText]
  omega

theorem not_oversized_sent (notDigit : isDigit args.soh = false)
    (small : message.data.length < 2 ^ 32) (number : Fin (2 ^ 64))
    (session : isSessionMessage (lookupMsgtype message.msgType) = true →
      message.data.length ≤ 244) :
    ¬ OversizedSession args (message.sent notDigit small number) := by
  rintro ⟨isSession, large⟩
  have enough := message.length_ends
  have fits := session isSession
  have typeField : msgTypeMaxLength = 16 := rfl
  have echo : echoMaxDataSize = 504 := rfl
  have short := message.short
  have beginFits := args.fits
  have numberDigits := length_render_le_twenty number.isLt
  have lengthDigits := length_render_le_twenty
    (bodyLengthOf_lt message.msgType number message.data.length)
  have counts : value (message.sent notDigit small number).digits =
      (message.sent notDigit small number).body.length :=
    (message.sent notDigit small number).counts
  have digits : (message.sent notDigit small number).digits =
      render (bodyLengthOf message.msgType number message.data.length) := rfl
  rw [digits, value_render, bodyLengthOf_eq number.isLt short small (by omega)] at counts
  rw [FixMessage.length_bytes, digits] at large
  omega

theorem typeOffset_points (notDigit : isDigit args.soh = false)
    (small : message.data.length < 2 ^ 32) (number : Fin (2 ^ 64))
    {completed : CompletedMessage} (counted : completed.msgSeqNumber = number)
    (bytes : completed.bytes = (message.sent notDigit small number).bytes args.beginString) :
    typeOffset args message completed = args.beginString.length +
        (message.sent notDigit small number).digits.length + 4 ∧
      message.msgType ++ [args.soh] <+:
        completed.bytes.drop (typeOffset args message completed) := by
  have offset : typeOffset args message completed = args.beginString.length +
      (message.sent notDigit small number).digits.length + 4 := by
    rw [typeOffset, counted, getDigitCount_eq (bodyLengthOf_lt _ _ _)]
    rfl
  refine ⟨offset, ?_⟩
  have front : (args.beginString ++ (message.sent notDigit small number).digits ++
        args.soh :: ascii ['3', '5', '=']).length = typeOffset args message completed := by
    rw [offset]
    simp [ascii]
    omega
  have whole : completed.bytes = (args.beginString ++ (message.sent notDigit small number).digits ++
        args.soh :: ascii ['3', '5', '=']) ++ ((message.msgType ++ [args.soh]) ++
          ((message.sent notDigit small number).fields ++
            (message.sent notDigit small number).trailer args.beginString)) := by
    rw [bytes, FixMessage.bytes, FixMessage.summed, FixMessage.body]
    simp [PartialMessage.sent]
  rw [← front, whole, List.drop_left]
  exact List.prefix_append _ _

theorem AtRest.transmits (rest : AtRest args s) (mallocs : ∀ count,
      args.mallocSucceeds count = true) (plain : args.Plain)
    (agreed : Agreed args version)
    (prepared : Prepared message.toPushRequest buffer)
    (transmissible : Transmissible args version message s.next) :
    ∃ completed behind, completeFIXMessage args.pusher s.expected buffer
        (getLengthOfPartialMsg buffer) = some completed ∧
      completed.msgSeqNumber = s.next ∧
      message.msgType ++ [args.soh] <+: completed.bytes.drop (typeOffset args message completed) ∧
      AtRest args behind ∧ behind.expected = s.next ∧
      splitBytes args s completed.bytes = (behind, arrival args message completed) := by
  have small : message.data.length < 2 ^ 32 :=
    (length_le_completedText _ _ _ _).trans_lt transmissible.sized
  have numberFits := s.next_lt
  have startFits : args.pusher.fixStart.length < 32 := args.fits
  have following : s.next = (s.expected + 1) % 2 ^ 64 := rfl
  obtain ⟨completed, completes, counted, -, text, -⟩ :=
    prepared.completes startFits message.short small following
  have bytes : completed.bytes = (message.sent agreed.notDigit small
      ⟨s.next, numberFits⟩).bytes args.beginString :=
    text.trans (PartialMessage.completedText_eq args.pusher message
      agreed.notDigit small ⟨s.next, numberFits⟩)
  obtain ⟨offset, points⟩ := typeOffset_points agreed.notDigit small
    ⟨s.next, numberFits⟩ counted bytes
  have sized : ((message.sent agreed.notDigit small
      ⟨s.next, numberFits⟩).bytes args.beginString).length < 2 ^ 32 := by
    rw [← bytes, text]
    exact transmissible.sized
  obtain ⟨behind, atRest, expected, runs⟩ := rest.delivers mallocs plain
    (length_render_le_twenty (bodyLengthOf_lt _ _ _)) sized
    (carries_sent agreed small ⟨s.next, numberFits⟩ transmissible.distinct)
    transmissible.counted
    (not_oversized_sent agreed.notDigit small _ transmissible.session)
  refine ⟨completed, behind, completes, counted, points, atRest, expected, ?_⟩
  rw [bytes, runs, deliveredEffects, arrival, bytes, counted, offset]
  rfl

theorem AtRest.transmits_all (rest : AtRest args s) (mallocs : ∀ count,
      args.mallocSucceeds count = true) (plain : args.Plain)
    (agreed : Agreed args version) {messages : List (PartialMessage args.soh)}
    {buffers : List (List UInt8)}
    (prepared : List.Forall₂ (fun message buffer =>
      Prepared message.toPushRequest buffer) messages buffers)
    (transmissible : ∀ index (inside : index < messages.length),
      Transmissible args version (messages.get ⟨index, inside⟩)
        ((s.expected + index + 1) % 2 ^ 64)) :
    ∃ sent behind, completeAll args.pusher s.expected buffers = some sent ∧
      sent.length = messages.length ∧
      (∀ pair ∈ messages.zip sent, pair.1.msgType ++ [args.soh] <+:
        pair.2.bytes.drop (typeOffset args pair.1 pair.2)) ∧
      AtRest args behind ∧
      behind.expected = (s.expected + messages.length) % 2 ^ 64 ∧
      splitBytes args s (sent.flatMap CompletedMessage.bytes) =
        (behind, (messages.zip sent).flatMap fun pair =>
          arrival args pair.1 pair.2) := by
  induction prepared generalizing s with
  | nil =>
    have counter := rest.consistent.counter
    refine ⟨[], s, rfl, rfl, by simp, rest, ?_, rfl⟩
    rw [List.length_nil, Nat.add_zero, Nat.mod_eq_of_lt counter]
  | cons first others induction =>
    rename_i message buffer messages buffers
    obtain ⟨completed, middle, completes, counted, points, atRest, expected,
      runs⟩ := rest.transmits mallocs plain agreed first (transmissible 0 (Nat.zero_lt_succ _))
    have later : ∀ index (inside : index < messages.length),
        Transmissible args version (messages.get ⟨index, inside⟩)
          ((middle.expected + index + 1) % 2 ^ 64) := by
      intro index inside
      have here := transmissible (index + 1) (Nat.succ_lt_succ inside)
      have number : (middle.expected + index + 1) % 2 ^ 64 =
          (s.expected + (index + 1) + 1) % 2 ^ 64 := by
        rw [expected, Splitter.next]
        omega
      rw [number]
      exact here
    obtain ⟨sent, behind, completesAll, lengths, pointsAll, atRestAll,
      expectedAll, runsAll⟩ := induction atRest later
    refine ⟨completed :: sent, behind, ?_, ?_, ?_, atRestAll, ?_, ?_⟩
    · rw [completeAll, completes, Option.bind_eq_bind, Option.bind_some,
        counted, ← expected, completesAll]
      rfl
    · rw [List.length_cons, List.length_cons, lengths]
    · intro pair member
      rw [List.zip_cons_cons] at member
      rcases List.mem_cons.mp member with rfl | laterPair
      · exact points
      · exact pointsAll pair laterPair
    · rw [expectedAll, expected, Splitter.next, List.length_cons]
      omega
    · rw [List.flatMap_cons, splitBytes, MealyMachine.run_append]
      rw [splitBytes] at runs runsAll
      rw [runs, runsAll]
      rfl

theorem AtRest.of_settled (rest : AtRest args s.settled) : AtRest args s where
  consistent := consistent_settled_iff.mp rest.consistent
  noFault := by
    rw [← Splitter.settled_fault]
    exact rest.noFault
  searching := by
    rw [← Splitter.settled_state]
    exact rest.searching
  atStart := by
    rw [← Splitter.settled_l]
    exact rest.atStart
  clear := by
    rw [← Splitter.settled_erange]
    exact rest.clear

theorem atRest_initial (args : SplitterArgs) (lastReceived : UInt64) :
    AtRest args (.initial lastReceived) :=
  ⟨consistent_initial args lastReceived, rfl, rfl, rfl, rfl⟩

/-- The messages made of any list of valid partial messages arrive byte for
byte and in order, in any cut of the stream, and leave the receiver at rest. -/
theorem sent_messages_arrive (args : SplitterArgs) (mallocs : ∀ count,
      args.mallocSucceeds count = true) (version : List UInt8)
    (agreed : Agreed args version) (plain : args.Plain)
    (lastSent : UInt64) (messages : List (PartialMessage args.soh))
    (buffers : List (List UInt8))
    (prepared : List.Forall₂ (fun message buffer =>
      Prepared message.toPushRequest buffer) messages buffers)
    (transmissible : ∀ index (inside : index < messages.length),
      Transmissible args version (messages.get ⟨index, inside⟩)
        ((lastSent.toNat + index + 1) % 2 ^ 64)) :
    ∃ sent, completeAll args.pusher lastSent.toNat buffers = some sent ∧
      sent.length = messages.length ∧
      (∀ pair ∈ messages.zip sent, pair.1.msgType ++ [args.soh] <+:
        pair.2.bytes.drop (typeOffset args pair.1 pair.2)) ∧
      ∀ entries, streamOf entries = sent.flatMap CompletedMessage.bytes →
        (splitEntries args (.initial lastSent) entries).2 =
            ((messages.zip sent).flatMap fun pair =>
              arrival args pair.1 pair.2) ∧
          AtRest args (splitEntries args (.initial lastSent) entries).1 ∧
          (splitEntries args (.initial lastSent) entries).1.expected =
            (lastSent.toNat + messages.length) % 2 ^ 64 := by
  obtain ⟨sent, behind, completes, lengths, points, atRest, expected, runs⟩ :=
    (atRest_initial args lastSent).transmits_all mallocs plain agreed prepared
      transmissible
  refine ⟨sent, completes, lengths, points, ?_⟩
  intro entries stream
  have refines := splitEntries_refines (sound_initial args lastSent) entries
  change _ = splitBytes args (.initial lastSent) (streamOf entries) at refines
  rw [stream, runs, Prod.mk.injEq] at refines
  obtain ⟨state, effects⟩ := refines
  refine ⟨effects, AtRest.of_settled (by rw [state]; exact atRest), ?_⟩
  rw [← Splitter.settled_expected, state, expected]
  rfl

def orderPartial : PartialMessage 1 where
  data := 1 :: ascii ['1', '0', '=']
  msgType := ascii ['D']
  ttlSec := 0
  ttlUsec := 0
  noNul := by decide
  begins := rfl
  ends := List.suffix_refl _
  typed := order_typed
  short := by decide
  delimited := order_delimited

def orderBuffer : List UInt8 :=
  (fillEntry orderPartial.toPushRequest (List.replicate 268 0)).getD []

theorem orderBuffer_prepared : Prepared orderPartial.toPushRequest orderBuffer := by
  have room : partialMsgOffset + orderPartial.data.length +
      fixBufferReservedTail ≤ (List.replicate 268 (0 : UInt8)).length := by
    rw [List.length_replicate]
    decide
  obtain ⟨buffer, filled, prepared, _⟩ := fillEntry_prepared orderPartial.short room
  rw [orderBuffer, filled]
  exact prepared

theorem fix41Args_agreed : Agreed fix41Args (ascii ['F', 'I', 'X', '.', '4', '.', '1']) where
  noNul := by decide
  short := by decide
  closed := by decide
  notDigit := by decide
  begins := by decide

theorem sent_messages_arrive_order :
    ∃ sent, completeAll fix41Args.pusher 0 [orderBuffer] = some sent ∧
      ∀ entries, streamOf entries = sent.flatMap CompletedMessage.bytes →
        (splitEntries fix41Args (.initial 0) entries).2 =
          (([orderPartial].zip sent).flatMap fun pair =>
            arrival fix41Args pair.1 pair.2) := by
  have first : Transmissible fix41Args
      (ascii ['F', 'I', 'X', '.', '4', '.', '1']) orderPartial 1 :=
    ⟨by decide, by decide +kernel, by decide +kernel, by decide⟩
  have transmissible : ∀ index (inside : index < [orderPartial].length),
      Transmissible fix41Args (ascii ['F', 'I', 'X', '.', '4', '.', '1'])
        ([orderPartial].get ⟨index, inside⟩)
        (((0 : UInt64).toNat + index + 1) % 2 ^ 64) := by
    intro index inside
    obtain rfl : index = 0 := by
      simpa using inside
    exact first
  obtain ⟨sent, completes, _, _, arrives⟩ := sent_messages_arrive fix41Args
    (fun _ => rfl) _ fix41Args_agreed
    (by unfold SplitterArgs.Plain; decide +kernel) 0 [orderPartial] [orderBuffer]
    (.cons orderBuffer_prepared .nil) transmissible
  exact ⟨sent, completes, fun entries stream => (arrives entries stream).1⟩

def lastOrderEntry : FoxtrotEntry where
  data := completedText fix41Args.pusher orderPartial.msgType orderPartial.data (2 ^ 64 - 1)
  fits := by decide +kernel

/-- The order that is sent under the largest number is not delivered. -/
theorem last_number_refused :
    Agreed fix41Args (ascii ['F', 'I', 'X', '.', '4', '.', '1']) ∧
      Prepared orderPartial.toPushRequest orderBuffer ∧
      (completeAll fix41Args.pusher (2 ^ 64 - 2) [orderBuffer]).map
        (fun sent => sent.flatMap CompletedMessage.bytes) =
          some (streamOf [lastOrderEntry]) ∧
      (splitEntries fix41Args (.initial (18446744073709551614 : UInt64))
          [lastOrderEntry]).2 =
        [.sendResendRequestMessage (2 ^ 64 - 2)] := by
  refine ⟨fix41Args_agreed, orderBuffer_prepared, ?_, ?_⟩
  · decide +kernel
  · decide +kernel

end RoundTrip

end MercuryFix
