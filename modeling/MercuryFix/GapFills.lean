import MercuryFix.ResendNumbers

/-!
# The numbers of a gap fill

`resend` prints the counter plus one as the NewSeqNo of a gap fill, and
`complete_FIX_message` counts on before it prints the MsgSeqNum: the two
numbers are always the same.
-/

namespace MercuryFix

open DecimalText ByteBlock

section Delimiter

variable {tx next : FixMessageTX} {args : PusherArgs} {version : FixVersion}
  {error goes : Bool} {input : RowInput} {pmsg : StoredMessage}

theorem appendField_soh {tag : Nat} {value : List UInt8} {code : Bool}
    (appends : tx.appendField tag value = some (next, code)) :
    next.soh = tx.soh :=
  (FixMessageTX.appendField_frame appends).1

theorem cloneFrom_soh {code : Bool}
    (clones : tx.cloneFrom pmsg = some (next, code)) : next.soh = tx.soh := by
  simp only [FixMessageTX.cloneFrom] at clones
  split at clones
  · cases clones
    rfl
  · split at clones
    · cases clones
    · simp only [Option.bind_eq_bind, Option.bind_eq_some_iff] at clones
      obtain ⟨copied, _, clones⟩ := clones
      split at clones
      · cases clones
        rfl
      · cases clones
        rfl

theorem expose_soh {exposed : Option Exposed}
    (exposes : tx.expose = some (next, exposed)) : next.soh = tx.soh := by
  simp only [FixMessageTX.expose] at exposes
  split at exposes
  · simp only [Option.bind_eq_bind, Option.bind_eq_some_iff,
      Option.some.injEq, Prod.mk.injEq] at exposes
    obtain ⟨_, _, rfl, _⟩ := exposes
    rfl
  · cases exposes
    rfl

theorem composeRow_soh {seqnum : Nat}
    (composes : composeRow version input seqnum pmsg tx = some (next, goes)) :
    next.soh = tx.soh := by
  simp only [composeRow] at composes
  split at composes
  · simp only [Option.bind_eq_bind, Option.bind_eq_some_iff,
      Option.some.injEq, Prod.mk.injEq] at composes
    obtain ⟨cloned, clones, typed, types, filling, fills, numbered, numbers,
      timed, times, rfl, _⟩ := composes
    rw [appendField_soh times, appendField_soh numbers, appendField_soh fills,
      appendField_soh types, cloneFrom_soh clones]
  · simp only [Option.bind_eq_bind, Option.bind_eq_some_iff] at composes
    obtain ⟨updated, _, cloned, clones, composes⟩ := composes
    split at composes
    · simp only [Option.bind_eq_some_iff, Option.some.injEq, Prod.mk.injEq] at composes
      obtain ⟨appended, appends, rfl, _⟩ := composes
      rw [appendField_soh appends, cloneFrom_soh clones]
    · cases composes
      exact cloneFrom_soh clones

variable {state later : Resending}

theorem completeRomeo_tx {count : Nat} (completes : completeRomeo args count state = some later) :
    later.tx = state.tx := by
  induction count generalizing state with
  | zero =>
    cases completes
    rfl
  | succ count induction =>
    rw [completeRomeo] at completes
    split at completes
    · simp only [Option.bind_eq_bind, Option.bind_eq_some_iff] at completes
      obtain ⟨completed, _, romeo, _, rest⟩ := completes
      have kept := induction rest
      exact kept
    · cases completes

theorem pushRomeo_tx (pushes : pushRomeo args state = some later) : later.tx = state.tx := by
  simp only [pushRomeo, Option.bind_eq_bind, Option.bind_eq_some_iff] at pushes
  obtain ⟨sighted, _, pushes⟩ := pushes
  split at pushes
  · simp only [Option.bind_eq_some_iff] at pushes
    obtain ⟨completed, completes, released, _, same⟩ := pushes
    cases same
    have kept := completeRomeo_tx completes
    exact kept
  · cases pushes

theorem resendRow_soh (resends : resendRow args version error input pmsg state =
      some (later, goes)) : later.tx.soh = state.tx.soh := by
  cases rowTurn_of_resendRow resends with
  | stops composes => exact composeRow_soh composes
  | fails composes exposes _ => exact (expose_soh exposes).trans (composeRow_soh composes)
  | sends composes exposes _ passes =>
    have kept := pushRomeo_tx passes
    rw [kept]
    exact (expose_soh exposes).trans (composeRow_soh composes)

theorem resendRows_soh {inputs : Nat → RowInput} {n : Nat} {messages : List StoredMessage}
    (resends : resendRows args version error inputs n messages state =
      some (later, goes)) : later.tx.soh = state.tx.soh := by
  refine resendRows_invariant (·.tx.soh = state.tx.soh) ?_ resends rfl
  intro input pmsg reached next done row kept
  exact (resendRow_soh row).trans kept

end Delimiter

section Numbers

def gapFillMessage (args : PusherArgs) (version : FixVersion)
    (clock : ClockReading) (newSeqNo msgSeqNum : Nat) : List UInt8 :=
  completedText args (ascii ['4'])
    (gapFillText args.soh version clock newSeqNo ++ checksumTag) msgSeqNum

variable {args : PusherArgs} {version : FixVersion} {clock : ClockReading}

theorem length_render_succ_le (number : Nat) :
    (render (number + 1)).length ≤ (render number).length + 1 := by
  have positive := length_render_pos number
  have below : number < 10 ^ (render number).length := (length_render_le_iff positive).mp le_rfl
  rw [length_render_le_iff (by omega)]
  have wider : 10 ^ (render number).length < 10 ^ ((render number).length + 1) :=
    Nat.pow_lt_pow_right (by omega) (by omega)
  omega

variable {newFirst first newSecond second : Nat}

theorem digits_le_of_gapFillMessage (firstFits : first < 2 ^ 64)
    (secondFits : second < 2 ^ 64) (newFits : newFirst ≤ 2 ^ 64)
    (newSecondFits : newSecond ≤ 2 ^ 64)
    (same : gapFillMessage args version clock newFirst first =
      gapFillMessage args version clock newSecond second) :
    (render newSecond).length + (render second).length ≤
      (render newFirst).length + (render first).length := by
  have tag : checksumTag.length = 3 := rfl
  have type : (ascii ['4']).length = 1 := rfl
  have stamp := stampLength_le version
  have newWidth : (render newFirst).length ≤ 20 := (length_render_le_iff (by omega)).mpr (by omega)
  have newSecondWidth : (render newSecond).length ≤ 20 :=
    (length_render_le_iff (by omega)).mpr (by omega)
  have lengths (newSeqNo : Nat) :
      (gapFillText args.soh version clock newSeqNo ++ checksumTag).length =
        18 + stampLength version + (render newSeqNo).length := by
    rw [List.length_append, length_gapFillText, tag]
    omega
  have shorter := length_le_of_completedText firstFits secondFits
    (by rw [lengths, type]; omega) (by rw [lengths, type]; omega) same
  rw [lengths, lengths] at shorter
  omega

theorem numbers_of_gapFillMessage (firstFits : first < 2 ^ 64) (secondFits : second < 2 ^ 64)
    (newWidth : (render newFirst).length = (render newSecond).length)
    (width : (render first).length = (render second).length)
    (same : gapFillMessage args version clock newFirst first =
      gapFillMessage args version clock newSecond second) :
    newFirst = newSecond ∧ first = second := by
  have lengths : (gapFillText args.soh version clock newFirst ++ checksumTag).length =
        (gapFillText args.soh version clock newSecond ++ checksumTag).length := by
    simp only [List.length_append, length_gapFillText, newWidth]
  obtain ⟨numberSame, texts⟩ := parts_of_completedText firstFits secondFits lengths width same
  refine ⟨?_, numberSame⟩
  have fields : fieldText args.soh 36 (render newFirst) ++
        (fieldText args.soh 52 (sendingTime version clock) ++ checksumTag) =
      fieldText args.soh 36 (render newSecond) ++
        (fieldText args.soh 52 (sendingTime version clock) ++ checksumTag) := by
    simpa [gapFillText] using texts
  have digits : render newFirst = render newSecond := by
    simpa [fieldText] using fields
  rw [← value_render newFirst, digits, value_render]

theorem gapFillMessage_ne {number other : Nat} (fits : number < 2 ^ 64)
    (otherFits : other < 2 ^ 64) :
    gapFillMessage args version clock number number ≠
      gapFillMessage args version clock (other + 1) other := by
  intro same
  have upper := digits_le_of_gapFillMessage fits otherFits (by omega) (by omega) same
  have lower := digits_le_of_gapFillMessage otherFits fits (by omega) (by omega) same.symm
  -- The widths of two successive numbers add up to an even number only if they
  -- are the same.
  have next := length_render_succ_le other
  have grows := length_render_mono (show other ≤ other + 1 by omega)
  obtain ⟨newSame, numberSame⟩ := numbers_of_gapFillMessage fits otherFits
    (by omega) (by omega) same
  omega

end Numbers

section Resending

/-- Wherever an expired row stands among the rows, the gap fill that `resend`
emits for it has a NewSeqNo of one more than its MsgSeqNum only when there is
none: the pusher thread has failed, and nothing is emitted. -/
theorem resend_gapFill_iff (args : PusherArgs)
    (startFits : args.fixStart.length < 32) (version : FixVersion)
    (error : Bool) (romeo : Disruptor.Ring (List UInt8))
    (reached : RomeoReached error romeo) (inputs : Nat → RowInput)
    (start : Nat) (earlier : List StoredMessage) (state : Resending)
    (gets : resend args version error inputs romeo start earlier =
      some (state, true))
    (pmsg : StoredMessage) (expired : pmsg.length = 0) :
    (∀ next goes,
      resendRow args version error (inputs earlier.length) pmsg state =
        some (next, goes) →
      ∃ emitted, next.written = state.written ++ emitted ∧
        ∀ message ∈ emitted, ∃ number < 2 ^ 64,
          message = gapFillMessage args version
            (inputs earlier.length).stampClock (number + 1) number) ↔
    error = true := by
  cases error with
  | true =>
    simp only [iff_true]
    intro next goes resends
    obtain ⟨-, nothing⟩ := resendRow_error resends
    exact ⟨[], by rw [nothing, List.append_nil], by simp⟩
  | false =>
    simp only [Bool.false_eq_true, iff_false, not_forall]
    obtain ⟨count, quiet⟩ := reached.quiet rfl
    obtain ⟨later, quietHere⟩ := (quiet.begins args.soh start).resendRows gets
    have delimiter : state.tx.soh = args.soh := resendRows_soh gets
    obtain ⟨next, sends, -, -, -, -, written⟩ := quietHere.resendRow_gapFill
      startFits delimiter expired (inputs earlier.length)
    refine ⟨next, true, sends, ?_⟩
    rintro ⟨emitted, appended, counted⟩
    rw [written, List.append_cancel_left_eq] at appended
    obtain ⟨number, fits, same⟩ := counted _ (appended ▸ List.mem_singleton_self _)
    exact gapFillMessage_ne (Nat.mod_lt _ (by decide)) fits same

/-- Behind a failure of the pusher thread an expired row emits nothing. -/
theorem resend_gapFill_failed :
    resend fix42PusherArgs .fix42 true (fun _ => newYearInput) romeoRegistered 1 []
      = some (.begin 1 romeoRegistered 1, true) ∧
    ∀ next goes,
      resendRow fix42PusherArgs .fix42 true newYearInput
          ⟨0, [], [], ⟨0, 0⟩⟩ (.begin 1 romeoRegistered 1) = some (next, goes) →
      ∃ emitted, next.written = [] ++ emitted ∧
        ∀ message ∈ emitted, ∃ number < 2 ^ 64,
          message = gapFillMessage fix42PusherArgs .fix42
            newYearInput.stampClock (number + 1) number :=
  ⟨rfl, (resend_gapFill_iff fix42PusherArgs (by decide) .fix42 true
    romeoRegistered (.failed .registered) (fun _ => newYearInput) 1 []
    (.begin 1 romeoRegistered 1) rfl ⟨0, [], [], ⟨0, 0⟩⟩ rfl).mpr rfl⟩

/-- A message that has expired is resent as a gap fill with the MsgSeqNum one
and the NewSeqNo one. -/
theorem resend_gapFill_stays :
    (timedDatabase [1]).getSentMsgs
        (fun _ => { newYearInput with readClock := ⟨100, 0⟩ }) 1 0 =
      some [(1, ⟨0, [], [], ⟨0, 0⟩⟩)] ∧
    (resend fix42PusherArgs .fix42 false (fun _ => newYearInput)
        romeoRegistered 1 [⟨0, [], [], ⟨0, 0⟩⟩]).map
      (fun result => (result.1.written, result.2)) =
      some ([gapFillMessage fix42PusherArgs .fix42 newYear 1 1], true) := by
  decide +kernel

end Resending

end MercuryFix
