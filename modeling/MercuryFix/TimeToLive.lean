import MercuryFix.BatchWrites
import MercuryFix.ResendNumbers

/-!
# The time to live of a message

`push`, `session_push` and `push_to_romeo` store the time at which a message
expires, `get_sent_msgs` compares it with the clock.  The comparison carries
whole seconds in an `int` and multiplies them by a million in an `int`, so that
it is exact up to 2147 of them.
-/

namespace MercuryFix

open ByteBlock

def Timeval.micros (time : Timeval) : Int := time.sec * 1000000 + time.usec

def Timeval.InSecond (time : Timeval) : Prop := 0 ≤ time.usec ∧ time.usec < 1000000

section Wrapping

theorem wrapInt_eq {value : Int} (lower : -2 ^ 31 ≤ value)
    (upper : value < 2 ^ 31) : wrapInt value = value := by
  rw [wrapInt]
  apply Int.bmod_eq_of_le_mul_two <;> omega

theorem wrapLong_eq {value : Int} (lower : -2 ^ 63 ≤ value)
    (upper : value < 2 ^ 63) : wrapLong value = value := by
  rw [wrapLong]
  apply Int.bmod_eq_of_le_mul_two <;> omega

theorem le_wrapInt (value : Int) : -2 ^ 31 ≤ wrapInt value := by
  have bound := Int.le_bmod (x := value) (m := 2 ^ 32) (by decide)
  rw [wrapInt]
  omega

theorem wrapInt_lt (value : Int) : wrapInt value < 2 ^ 31 := by
  have bound := Int.bmod_lt (x := value) (m := 2 ^ 32) (by decide)
  rw [wrapInt]
  omega

theorem wrapInt_emod (value : Int) : wrapInt value % 2 ^ 32 = value % 2 ^ 32 := by
  have same := Int.bmod_emod (x := value) (m := 2 ^ 32)
  rw [wrapInt]
  simpa using same

theorem wrapLong_emod (value : Int) : wrapLong value % 2 ^ 64 = value % 2 ^ 64 := by
  have same := Int.bmod_emod (x := value) (m := 2 ^ 64)
  rw [wrapLong]
  simpa using same

theorem le_wrapLong (value : Int) : -2 ^ 63 ≤ wrapLong value := by
  have bound := Int.le_bmod (x := value) (m := 2 ^ 64) (by decide)
  rw [wrapLong]
  omega

theorem wrapLong_lt (value : Int) : wrapLong value < 2 ^ 63 := by
  have bound := Int.bmod_lt (x := value) (m := 2 ^ 64) (by decide)
  rw [wrapLong]
  omega

theorem wrapLong_of_overflow {value : Int} (lower : 2 ^ 63 ≤ value)
    (upper : value < 2 ^ 64) : wrapLong value = value - 2 ^ 64 := by
  rw [← wrapLong_eq (show -2 ^ 63 ≤ value - 2 ^ 64 by omega) (by omega)]
  exact (Int.sub_bmod_right value (2 ^ 64)).symm

end Wrapping

section Expiry

variable {x y p ttl : Timeval}

theorem timevalSubtract_exact (clock : y.InSecond) (positive : 0 ≤ x.usec)
    (small : x.usec < 2148000000) :
    (timevalSubtract x y).1.micros = x.micros - y.micros ∧ 0 ≤ (timevalSubtract x y).1.usec ∧
      (timevalSubtract x y).1.usec ≤ 1000000 ∧
      ((timevalSubtract x y).2 = true ↔ (timevalSubtract x y).1.sec < 0) := by
  obtain ⟨lower, upper⟩ := clock
  simp only [timevalSubtract, Timeval.micros, decide_eq_true_eq]
  by_cases borrow : x.usec < y.usec
  · -- One second is carried, and nothing is left to carry back.
    have difference : wrapLong (y.usec - x.usec) = y.usec - x.usec :=
      wrapLong_eq (by omega) (by omega)
    have seconds : wrapInt ((y.usec - x.usec).tdiv 1000000 + 1) = 1 := by
      rw [Int.tdiv_eq_ediv_of_nonneg (by omega)]
      rw [show (y.usec - x.usec) / 1000000 = 0 by omega]
      rfl
    have product : wrapInt (1000000 * 1) = 1000000 := by rfl
    have rest : wrapLong (x.usec - (y.usec - 1000000)) = x.usec - (y.usec - 1000000) :=
      wrapLong_eq (by omega) (by omega)
    simp only [if_pos borrow, difference, seconds, product, rest]
    rw [if_neg (by omega)]
    simp only [rest]
    omega
  · simp only [if_neg borrow]
    have difference : wrapLong (x.usec - y.usec) = x.usec - y.usec :=
      wrapLong_eq (by omega) (by omega)
    rw [difference]
    by_cases carry : 1000000 < x.usec - y.usec
    · have seconds : wrapInt ((x.usec - y.usec).tdiv 1000000) = (x.usec - y.usec) / 1000000 := by
        rw [Int.tdiv_eq_ediv_of_nonneg (by omega)]
        exact wrapInt_eq (by omega) (by omega)
      have product : wrapInt (1000000 * ((x.usec - y.usec) / 1000000)) =
          1000000 * ((x.usec - y.usec) / 1000000) :=
        wrapInt_eq (by omega) (by omega)
      simp only [if_pos carry, seconds, product]
      have rest : wrapLong (x.usec - (y.usec + 1000000 * ((x.usec - y.usec) / 1000000))) =
          x.usec - (y.usec + 1000000 * ((x.usec - y.usec) / 1000000)) :=
        wrapLong_eq (by omega) (by omega)
      rw [rest]
      omega
    · simp only [if_neg carry, difference]
      omega

theorem isTtlExpired_exact (clock : y.InSecond) (positive : 0 ≤ x.usec)
    (small : x.usec < 2148000000) :
    if y.micros < x.micros then
      (isTtlExpired x y).2 = false ∧ (isTtlExpired x y).1.micros = x.micros - y.micros
    else isTtlExpired x y = (⟨0, 0⟩, true) := by
  obtain ⟨exact, lower, upper, negative⟩ := timevalSubtract_exact clock positive small
  unfold isTtlExpired
  generalize timevalSubtract x y = subtracted at exact lower upper negative
  obtain ⟨⟨sec, usec⟩, flag⟩ := subtracted
  simp only [Timeval.micros] at exact lower upper negative ⊢
  cases flag with
  | true =>
    have past : sec < 0 := negative.mp rfl
    rw [if_neg (by omega)]
    rfl
  | false =>
    have future : ¬ sec < 0 := fun past => absurd (negative.mpr past) (by simp)
    simp only [Bool.false_eq_true, ↓reduceIte, Bool.and_eq_false_iff, beq_eq_false_iff_ne]
    split
    · exact ⟨by omega, by omega⟩
    · have sec_zero : sec = 0 := by omega
      have usec_zero : usec = 0 := by omega
      rw [sec_zero, usec_zero]
      rfl

theorem isTtlExpired_negative (negative : (timevalSubtract x y).2 = true) :
    isTtlExpired x y = (⟨0, 0⟩, true) := by
  rw [isTtlExpired, negative]
  rfl

theorem isTtlExpired_wrong (large : 2148000000 ≤ x.usec) (bounded : x.usec < 2 ^ 63) :
    ∃ later, 0 ≤ later ∧ later * 1000000 < x.usec ∧
      (isTtlExpired x ⟨x.sec + later, 0⟩).1.micros ≠ x.usec - later * 1000000 := by
  have whole : wrapLong (x.usec - 0) = x.usec := by
    rw [Int.sub_zero]
    exact wrapLong_eq (by omega) bounded
  have quotient : x.usec.tdiv 1000000 = x.usec / 1000000 := Int.tdiv_eq_ediv_of_nonneg (by omega)
  have congruent := wrapInt_emod (x.usec / 1000000)
  have seconds := wrapInt_lt (x.usec / 1000000)
  have subtracted : ∀ later, timevalSubtract x ⟨x.sec + later, 0⟩ =
      (⟨x.sec - (x.sec + later - wrapInt (x.usec / 1000000)),
        wrapLong (x.usec - (0 + wrapInt (1000000 * wrapInt (x.usec / 1000000))))⟩,
        decide (x.sec < x.sec + later - wrapInt (x.usec / 1000000))) := by
    intro later
    have above : ¬ x.usec < 0 := by omega
    have carry : 1000000 < x.usec := by omega
    simp only [timevalSubtract, if_neg above, whole, quotient, if_pos carry]
  generalize wrapInt (x.usec / 1000000) = nsec at congruent subtracted seconds
  have expired : ∀ later, nsec < later → later * 1000000 < x.usec →
      (isTtlExpired x ⟨x.sec + later, 0⟩).1.micros ≠ x.usec - later * 1000000 := by
    intro later ahead live
    rw [isTtlExpired_negative (by
      rw [subtracted]
      exact decide_eq_true (by omega))]
    simp only [Timeval.micros]
    omega
  by_cases near : -2147 ≤ nsec ∧ nsec ≤ 2147
  · -- The number of seconds was truncated: it is at least 2^32 - 2147.
    have live : (2148 : Int) * 1000000 < x.usec := by omega
    exact ⟨2148, by omega, live, expired 2148 (by omega) live⟩
  · have live : (0 : Int) * 1000000 < x.usec := by omega
    refine ⟨0, le_rfl, live, ?_⟩
    by_cases backward : nsec < 0
    · exact expired 0 backward live
    · -- The number of seconds is not truncated, but its product is.
      have lower := le_wrapInt (1000000 * nsec)
      have upper := wrapInt_lt (1000000 * nsec)
      rw [isTtlExpired, subtracted, show decide (x.sec < x.sec + 0 - nsec) = false from
          decide_eq_false (by omega)]
      generalize wrapInt (1000000 * nsec) = product at lower upper
      have rest := wrapLong_emod (x.usec - (0 + product))
      simp only [Bool.false_eq_true, ↓reduceIte, Timeval.micros]
      intro same
      have multiple : (1000000 * nsec - product) % 2 ^ 64 = 0 := by omega
      rw [Int.emod_eq_of_lt (by omega) (by omega)] at multiple
      omega

theorem timevalSubtract_far (far : x.sec + 2 ^ 32 ≤ y.sec) : (timevalSubtract x y).2 = true := by
  have first := le_wrapInt ((wrapLong (y.usec - x.usec)).tdiv 1000000 + 1)
  simp only [timevalSubtract, decide_eq_true_eq]
  generalize carried : (if x.usec < y.usec then (⟨_, _⟩ : Timeval) else y) = borrowed
  have bound : x.sec + 2 ^ 31 ≤ borrowed.sec := by
    rw [← carried]
    split
    · simp only
      omega
    · omega
  have second := wrapInt_lt ((wrapLong (x.usec - borrowed.usec)).tdiv 1000000)
  split
  · simp only
    omega
  · omega

end Expiry

section Deadline

variable {p ttl : Timeval}

theorem expireTime_exact (clock : p.InSecond) (usec : 0 ≤ ttl.usec)
    (fits : p.usec + ttl.usec < 2 ^ 63) :
    (expireTime p ttl).micros = p.micros + ttl.micros ∧ (expireTime p ttl).usec =
        if 1000000 ≤ p.usec + ttl.usec then p.usec + ttl.usec - 1000000
        else p.usec + ttl.usec := by
  obtain ⟨lower, upper⟩ := clock
  have sum : wrapLong (p.usec + ttl.usec) = p.usec + ttl.usec := wrapLong_eq (by omega) fits
  by_cases carry : 1000000 ≤ p.usec + ttl.usec
  · have expires : expireTime p ttl = ⟨p.sec + ttl.sec + 1, p.usec + ttl.usec - 1000000⟩ := by
      simp only [expireTime, sum, if_pos carry]
    rw [expires, if_pos carry]
    simp only [Timeval.micros, and_true]
    omega
  · have expires : expireTime p ttl = ⟨p.sec + ttl.sec, p.usec + ttl.usec⟩ := by
      simp only [expireTime, sum, if_neg carry]
    rw [expires, if_neg carry]
    simp only [Timeval.micros, and_true]
    omega

theorem expireTime_range (early : -2 ^ 63 ≤ p.sec) (sec : 0 ≤ ttl.sec)
    (late : p.sec + ttl.sec + 1 < 2 ^ 63) :
    (-2 ^ 63 ≤ (expireTime p ttl).sec ∧ (expireTime p ttl).sec < 2 ^ 63) ∧
      -2 ^ 63 ≤ (expireTime p ttl).usec ∧ (expireTime p ttl).usec < 2 ^ 63 := by
  have lower := le_wrapLong (p.usec + ttl.usec)
  have upper := wrapLong_lt (p.usec + ttl.usec)
  unfold expireTime
  dsimp only
  split
  · dsimp only
    omega
  · dsimp only
    omega

/-- The comparison of the stored time with the clock is exact from the push on
if and only if the microseconds stay below 2149 seconds. -/
theorem isTtlExpired_expireTime (clock : p.InSecond) (sec : 0 ≤ ttl.sec)
    (usec : 0 ≤ ttl.usec) (long : ttl.usec < 2 ^ 63) :
    (∀ q : Timeval, q.InSecond → p.micros ≤ q.micros → if q.micros < p.micros + ttl.micros then
        (isTtlExpired (expireTime p ttl) q).2 = false ∧
          (isTtlExpired (expireTime p ttl) q).1.micros = p.micros + ttl.micros - q.micros
      else isTtlExpired (expireTime p ttl) q = (⟨0, 0⟩, true)) ↔
    p.usec + ttl.usec < 2149000000 := by
  have inSecond : ∀ second, (⟨second, 0⟩ : Timeval).InSecond :=
    fun _ => ⟨le_rfl, Int.one_pos.trans (by decide)⟩
  constructor
  · intro promised
    by_contra large
    by_cases fits : p.usec + ttl.usec < 2 ^ 63
    · obtain ⟨total, usecEq⟩ := expireTime_exact clock usec fits
      rw [if_pos (by omega)] at usecEq
      obtain ⟨later, nonneg, live, wrong⟩ :=
        isTtlExpired_wrong (x := expireTime p ttl) (by omega) (by omega)
      have before := clock.2
      obtain ⟨q, atQ⟩ : ∃ q, q = (⟨(expireTime p ttl).sec + later, 0⟩ : Timeval) := ⟨_, rfl⟩
      have micros : q.micros =
          p.micros + ttl.micros - ((expireTime p ttl).usec - later * 1000000) := by
        rw [atQ, ← total]
        simp only [Timeval.micros]
        omega
      have ahead : p.micros ≤ q.micros := by
        rw [micros]
        simp only [Timeval.micros] at total ⊢
        omega
      have here := promised q (atQ ▸ inSecond _) ahead
      rw [if_pos (by omega), micros] at here
      rw [← atQ] at wrong
      exact wrong (here.2.trans (by omega))
    · -- The sum of the microseconds wraps to a negative number.
      have before := clock.2
      have wrapped : wrapLong (p.usec + ttl.usec) = p.usec + ttl.usec - 2 ^ 64 :=
        wrapLong_of_overflow (by omega) (by omega)
      have expires : expireTime p ttl = ⟨p.sec + ttl.sec, p.usec + ttl.usec - 2 ^ 64⟩ := by
        simp only [expireTime, wrapped, if_neg (show
          ¬ 1000000 ≤ p.usec + ttl.usec - 2 ^ 64 by omega)]
      have here := promised ⟨p.sec + ttl.sec + 2 ^ 32, 0⟩ (inSecond _) (by
        simp only [Timeval.micros]
        omega)
      rw [if_pos (by simp only [Timeval.micros]; omega), expires,
        isTtlExpired_negative (timevalSubtract_far le_rfl)] at here
      exact absurd here.1 (by decide)
  · intro small q inside later
    have fits : p.usec + ttl.usec < 2 ^ 63 := by omega
    have before := clock.1
    obtain ⟨total, usecEq⟩ := expireTime_exact clock usec fits
    rw [← total]
    apply isTtlExpired_exact inside
    · rw [usecEq]
      split <;> omega
    · rw [usecEq]
      split <;> omega

end Deadline

section Rows

variable {now ttl : Timeval} {data msgType : List UInt8}

/-- What `push`, `session_push` and `push_to_romeo` put into an entry. -/
def timedRequest (now ttl : Timeval) (data msgType : List UInt8)
    (noNul : (0 : UInt8) ∉ msgType) : PushRequest where
  data := data
  msgType := msgType
  ttlSec := ((expireTime now ttl).sec % 2 ^ 64).toNat
  ttlUsec := ((expireTime now ttl).usec % 2 ^ 64).toNat
  noNul := noNul

theorem romeoRequest_eq (now : Timeval) (exposed : Exposed) :
    romeoRequest now exposed = timedRequest now exposed.ttl exposed.partialMsg
      (cString exposed.msgType) (noNul_cString exposed.msgType) :=
  rfl

theorem signedSeqnum_ofNat_emod {value : Int} (lower : -2 ^ 63 ≤ value) (upper : value < 2 ^ 63) :
    signedSeqnum (UInt64.ofNat ((value % 2 ^ 64).toNat % 2 ^ 64)) = value := by
  have number : (UInt64.ofNat ((value % 2 ^ 64).toNat % 2 ^ 64)).toNat =
      (value % 2 ^ 64).toNat := by
    rw [UInt64.toNat_ofNat']
    omega
  rw [signedSeqnum, number]
  split <;> omega

theorem Prepared.stored {request : PushRequest} {buffer : List UInt8}
    (prepared : Prepared request buffer) {args : PusherArgs} {msgSeqNumber : Nat}
    {completed : CompletedMessage}
    (completes : completeFIXMessage args msgSeqNumber buffer
      (MercuryFix.getLengthOfPartialMsg buffer) = some completed) :
    completed.stored = ⟨(msgSeqNumber + 1) % 2 ^ 64,
      request.data.length % 2 ^ 32, request.ttlSec % 2 ^ 64,
      request.ttlUsec % 2 ^ 64, request.data.take (request.data.length % 2 ^ 32),
      request.msgType⟩ := by
  have bytes : window buffer partialMsgOffset (request.data.length % 2 ^ 32) =
      request.data.take (request.data.length % 2 ^ 32) := by
    have taken := congrArg (List.take (request.data.length % 2 ^ 32)) prepared.data
    rwa [window, List.take_take, Nat.min_eq_left (Nat.mod_le _ _)] at taken
  rw [(completeFIXMessage_stored completes).2, prepared.getTtl,
    prepared.cString_msgType, prepared.getLengthOfPartialMsg, bytes]

/-- What `get_sent_msgs` owes a row with some bytes and a type at a deadline:
the row with the time that remains before it, and an empty message from then
on. -/
def Promised (deadline : Int) (bytes msgType : List UInt8) (input : RowInput)
    (message : StoredMessage) : Prop :=
  if input.readClock.micros < deadline then
    message.length = bytes.length ∧ message.msgType = msgType ∧
      message.partMsg = bytes ++ input.spare ∧
      message.ttl.micros = deadline - input.readClock.micros
  else message = ⟨0, [], [], ⟨0, 0⟩⟩

/-- The message that `get_sent_msgs` makes of a row, given what
`is_ttl_expired` says. -/
def judgedMessage (bytes msgType : List UInt8) (input : RowInput)
    (judgement : Timeval × Bool) : StoredMessage :=
  if judgement.2 = true then ⟨0, [], [], judgement.1⟩
  else ⟨bytes.length, msgType, bytes ++ input.spare, judgement.1⟩

theorem promised_judgedMessage_iff {deadline : Int} {bytes : List UInt8}
    {input : RowInput} {judgement : Timeval × Bool} :
    Promised deadline bytes msgType input (judgedMessage bytes msgType input judgement) ↔
      if input.readClock.micros < deadline then
        judgement.2 = false ∧ judgement.1.micros = deadline - input.readClock.micros
      else judgement = (⟨0, 0⟩, true) := by
  -- The spare bytes tell a row from an empty message.
  have spare : bytes ++ input.spare ≠ [] := by
    intro empty
    have none := (List.append_eq_nil_iff.mp empty).2
    have five := input.spareLength
    rw [none] at five
    cases five
  obtain ⟨remaining, expired⟩ := judgement
  unfold Promised judgedMessage
  cases expired with
  | true =>
    split
    · simp [spare.symm]
    · simp
  | false =>
    split
    · simp
    · simp [spare]

theorem Prepared.readRow_timed {noNul : (0 : UInt8) ∉ msgType} {buffer : List UInt8}
    (prepared : Prepared (timedRequest now ttl data msgType noNul) buffer)
    {args : PusherArgs} {msgSeqNumber : Nat} {completed : CompletedMessage}
    (completes : completeFIXMessage args msgSeqNumber buffer
      (MercuryFix.getLengthOfPartialMsg buffer) = some completed)
    (early : -2 ^ 63 ≤ now.sec) (sec : 0 ≤ ttl.sec)
    (late : now.sec + ttl.sec + 1 < 2 ^ 63) (input : RowInput) :
    readRow input completed.stored =
      some (judgedMessage (data.take (data.length % 2 ^ 32)) msgType input
        (isTtlExpired (expireTime now ttl) input.readClock)) := by
  obtain ⟨⟨secLower, secUpper⟩, usecLower, usecUpper⟩ := expireTime_range early sec late
  have shorter := Nat.mod_le data.length (2 ^ 32)
  have width : (data.take (data.length % 2 ^ 32)).length = data.length % 2 ^ 32 := by
    rw [List.length_take, Nat.min_eq_left shorter]
  simp only [prepared.stored completes, readRow, timedRequest, judgedMessage,
    signedSeqnum_ofNat_emod secLower secUpper, signedSeqnum_ofNat_emod usecLower usecUpper,
    Nat.mod_mod, width, le_rfl, ↓reduceIte, cString_eq_self noNul, List.take_take, Nat.min_self]
  split <;> rfl

/-- Every later `get_sent_msgs` honours the time to live of a push if and only
if the microseconds of the push and of the time to live stay below 2149
seconds. -/
theorem getSentMsgs_promised_iff {Path : Type*} (path : Path) (args : PusherArgs)
    (call : PushCall) (now ttl : Timeval) (data msgType : List UInt8)
    (noNul : (0 : UInt8) ∉ msgType) {queue : Queue}
    {memory malloced block filled : List UInt8} {msgSeqNumber : Nat}
    {completed : CompletedMessage}
    (clock : now.InSecond) (sec : 0 ≤ ttl.sec) (usec : 0 ≤ ttl.usec)
    (long : ttl.usec < 2 ^ 63) (early : -2 ^ 63 ≤ now.sec)
    (late : now.sec + ttl.sec + 1 < 2 ^ 63)
    (admitted : call.entry (timedRequest now ttl data msgType noNul) = some queue)
    (sized : queue.Sized memory)
    (blocks : queue.block (timedRequest now ttl data msgType noNul) memory
      malloced = some block)
    (fills : fillEntry (timedRequest now ttl data msgType noNul) block =
      some filled)
    (completes : completeFIXMessage args msgSeqNumber filled
      (getLengthOfPartialMsg filled) = some completed) :
    (∀ (db : MsgDB Path SentRecord) (inputs : Nat → RowInput)
        (start stop k : Nat) (seqnum : UInt64),
      db.handle = some path → (∀ row ∈ db.files path, row.2.Whole) →
      (sentRows (db.files path) start stop)[k]? =
        some (seqnum, completed.stored) →
      (inputs k).readClock.InSecond →
      now.micros ≤ (inputs k).readClock.micros →
      ∃ rows message, db.getSentMsgs inputs start stop = some rows ∧
        rows[k]? = some (seqnum, message) ∧
        Promised (now.micros + ttl.micros) (data.take (data.length % 2 ^ 32))
          msgType (inputs k) message) ↔
    now.usec + ttl.usec < 2149000000 := by
  obtain ⟨content, fillsContent, -, prepared⟩ :=
    fillEntry_of_entry admitted sized blocks
  obtain rfl : filled = content := by
    rw [fills] at fillsContent
    exact Option.some.inj fillsContent
  have reads := prepared.readRow_timed completes early sec late
  rw [← isTtlExpired_expireTime clock sec usec long]
  constructor
  · intro promised q inside later
    -- A database with nothing but the row shows what is made of it.
    let input : RowInput := { newYearInput with readClock := q }
    have whole : completed.stored.Whole := by
      rw [prepared.stored completes]
      simp [SentRecord.Whole, timedRequest, Nat.mod_le]
    obtain ⟨rows, message, lists, found, kept⟩ := promised
      ⟨some path, some path, fun _ => [(1, completed.stored)]⟩ (fun _ => input)
      0 0 0 1 rfl (by simpa using whole) rfl inside later
    obtain ⟨again, read, foundAgain⟩ := getElem?_readRows
      (show readRows (fun _ => input) 0 [(1, completed.stored)] = some rows
        from lists) (show [(1, completed.stored)][0]? = some _ from rfl)
    rw [foundAgain] at found
    cases found
    rw [reads] at read
    cases read
    exact promised_judgedMessage_iff.mp kept
  · intro exact db inputs start stop k seqnum handle whole listed inside later
    obtain ⟨rows, readAll⟩ := readRows_of_whole
      (fun row member => whole row (mem_sentRows member)) inputs 0
    obtain ⟨message, read, found⟩ := getElem?_readRows readAll listed
    rw [Nat.zero_add, reads] at read
    cases read
    refine ⟨rows, _, ?_, found, ?_⟩
    · rw [MsgDB.getSentMsgs, handle, Option.bind_some, readAll]
    · exact promised_judgedMessage_iff.mpr (exact _ inside later)

/-- A message that is pushed for an hour and nine tenths of a second. -/
theorem getSentMsgs_promised_hour :
    ∃ filled completed,
      fillEntry (timedRequest ⟨1700000000, 250000⟩ ⟨3600, 900000⟩ checksumTag
          (ascii ['D']) (by decide)) (List.replicate 4096 0) = some filled ∧
      completeFIXMessage fix42PusherArgs 0 filled
        (getLengthOfPartialMsg filled) = some completed ∧
      ∀ (db : MsgDB Unit SentRecord) (inputs : Nat → RowInput)
          (start stop k : Nat) (seqnum : UInt64),
        db.handle = some () → (∀ row ∈ db.files (), row.2.Whole) →
        (sentRows (db.files ()) start stop)[k]? =
          some (seqnum, completed.stored) →
        (inputs k).readClock.InSecond →
        Timeval.micros ⟨1700000000, 250000⟩ ≤ (inputs k).readClock.micros →
        ∃ rows message, db.getSentMsgs inputs start stop = some rows ∧
          rows[k]? = some (seqnum, message) ∧
          Promised (Timeval.micros ⟨1700000000, 250000⟩ +
              Timeval.micros ⟨3600, 900000⟩)
            (checksumTag.take (checksumTag.length % 2 ^ 32)) (ascii ['D'])
            (inputs k) message := by
  have noNul : (0 : UInt8) ∉ ascii ['D'] := by decide
  have admitted : PushCall.push.entry (timedRequest ⟨1700000000, 250000⟩
      ⟨3600, 900000⟩ checksumTag (ascii ['D']) noNul) = some .alfa := rfl
  have sized : Queue.alfa.Sized (List.replicate 4096 0) :=
    List.length_replicate
  have blocks : Queue.alfa.block (timedRequest ⟨1700000000, 250000⟩
      ⟨3600, 900000⟩ checksumTag (ascii ['D']) noNul) (List.replicate 4096 0)
      [] = some (List.replicate 4096 0) := rfl
  obtain ⟨filled, completed, inside⟩ := push_staysInside fix42PusherArgs
    admitted sized blocks (by decide) 0
  exact ⟨filled, completed, inside.fills, inside.completes,
    (getSentMsgs_promised_iff () fix42PusherArgs .push ⟨1700000000, 250000⟩
      ⟨3600, 900000⟩ checksumTag (ascii ['D']) noNul
      ⟨by decide, by decide⟩ (by decide) (by decide) (by decide) (by decide)
      (by decide) admitted sized blocks inside.fills inside.completes).mpr
      (by decide)⟩

/-- A message that is pushed for `2 ^ 32` seconds, given in microseconds, has
expired one second later. -/
theorem getSentMsgs_expired_early :
    ((fillEntry (timedRequest ⟨1700000000, 0⟩ ⟨0, 4294967296000000⟩ checksumTag
        (ascii ['D']) (by decide)) (List.replicate 4096 0)).bind fun filled =>
      (completeFIXMessage fix42PusherArgs 0 filled
        (getLengthOfPartialMsg filled)).bind fun completed =>
      (⟨some (), some (), fun _ => [(1, completed.stored)]⟩ :
          MsgDB Unit SentRecord).getSentMsgs
        (fun _ => { newYearInput with readClock := ⟨1700000001, 0⟩ }) 1 0) =
      some [(1, ⟨0, [], [], ⟨0, 0⟩⟩)] := by
  decide +kernel

end Rows

end MercuryFix
