import MercuryFix.SentMessages

/-!
# The new SendingTime, statement by statement

`update_sendingtime` writes the new value with `strftime` and `sprintf`.  Each of
them puts a NUL behind its text, and the statement that follows overwrites it.
The old value goes to `orig_sendingtime` with `strncpy`, which stops at a NUL.
-/

namespace MercuryFix

open ByteBlock

def strncpy (source : List UInt8) (count : Nat) : List UInt8 :=
  let text := cString (source.take count)
  text ++ List.replicate (count - text.length) 0

/-- The statements that put the old value into the array behind
`orig_sendingtime`. -/
def saveSendingtime (version : FixVersion) (pos orig : List UInt8) :
    Option (List UInt8) := do
  let copied ← memcpy orig 0 (strncpy pos (stampLength version))
  memcpy copied (stampLength version) [0]

/-- The statements that put the new value into the block at `pos`.  `strftime`
and `sprintf` write a terminator behind their text. -/
def writeSendingtime (soh : UInt8) (version : FixVersion)
    (clock : ClockReading) (block : List UInt8) (pos : Nat) :
    Option (List UInt8) :=
  match version with
  | .fix40 | .fix41 => do
      let dated ← memcpy block pos (clock.date ++ [0])
      memcpy dated (pos + 17) [soh]
  | _ => do
      let dated ← memcpy block pos ((clock.date ++ [46]) ++ [0])
      let timed ← memcpy dated (pos + 18) (sprintf03u (clock.usec / 1000) ++ [0])
      memcpy timed (pos + 18 + 3) [soh]

def updateSendingtimeStepwise (soh : UInt8) (version : FixVersion)
    (clock : ClockReading) (pmsg : StoredMessage) (orig : List UInt8) :
    Option (StoredMessage × List UInt8) := do
  let found ← strnstr pmsg.partMsg (sendingTimeTag soh) pmsg.length
  let pos := found + (sendingTimeTag soh).length
  let saved ← saveSendingtime version (pmsg.partMsg.drop pos) orig
  let updated ← writeSendingtime soh version clock pmsg.partMsg pos
  some ({ pmsg with partMsg := updated }, saved)

section Copy

theorem length_strncpy (source : List UInt8) (count : Nat) :
    (strncpy source count).length = count := by
  have shorter : (cString (source.take count)).length ≤ count :=
    (List.takeWhile_prefix _).length_le.trans (List.length_take_le count source)
  simp only [strncpy, List.length_append, List.length_replicate]
  omega

theorem strncpy_of_noNul {source : List UInt8} {count : Nat}
    (noNul : (0 : UInt8) ∉ source.take count)
    (covers : count ≤ source.length) :
    strncpy source count = source.take count := by
  simp only [strncpy, cString_eq_self noNul, List.length_take,
    Nat.min_eq_left covers, Nat.sub_self, List.replicate_zero, List.append_nil]

theorem cString_strncpy (source rest : List UInt8) (count : Nat) :
    cString (strncpy source count ++ 0 :: rest) = cString (source.take count) := by
  have noNul := noNul_cString (source.take count)
  simp only [strncpy]
  cases count - (cString (source.take count)).length with
  | zero =>
    rw [List.replicate_zero, List.append_nil]
    exact cString_of_noNul noNul
  | succ padding =>
    rw [List.replicate_succ, List.append_assoc]
    exact cString_of_noNul noNul

end Copy

section Stepwise

variable {soh : UInt8} {version : FixVersion} {clock : ClockReading}

theorem saveSendingtime_eq {orig : List UInt8} (array : orig.length = 24) (pos : List UInt8) :
    saveSendingtime version pos orig =
      some (blit orig 0 (strncpy pos (stampLength version) ++ [0])) := by
  have short := stampLength_le version
  have width := length_strncpy pos (stampLength version)
  rw [saveSendingtime, memcpy_of_fits (by omega)]
  apply memcpy_blit
  · omega
  · rw [List.length_singleton]
    omega

theorem writeSendingtime_eq (block : List UInt8) (pos : Nat) :
    writeSendingtime soh version clock block pos =
      memcpy block pos (sendingTime version clock ++ [soh]) := by
  have millis : (sprintf03u (clock.usec / 1000)).length = 3 := by
    have inSecond := clock.inSecond
    have below : clock.usec / 1000 < 1000 := by omega
    simp [sprintf03u, below]
  have seconds : ((memcpy block pos (clock.date ++ [0])).bind fun dated =>
      memcpy dated (pos + 17) [soh]) = memcpy block pos (clock.date ++ [soh]) := by
    apply memcpy_overwrite
    · rw [clock.dateLength]
    · simp
  have thousandths : ((memcpy block pos ((clock.date ++ [46]) ++ [0])).bind
      fun dated => (memcpy dated (pos + 18) (sprintf03u (clock.usec / 1000) ++ [0])).bind
      fun timed => memcpy timed (pos + 18 + 3) [soh]) =
        memcpy block pos (clock.date ++ 46 :: sprintf03u (clock.usec / 1000) ++ [soh]) := by
    rw [← Option.bind_assoc, memcpy_overwrite (by simp [clock.dateLength]) (by simp),
      ← List.append_assoc,
      memcpy_overwrite (by simp [clock.dateLength, millis]) (by simp)]
    simp
  cases version
  case fix40 | fix41 => exact seconds
  all_goals exact thousandths

variable {pmsg : StoredMessage} {orig : List UInt8}

theorem updateSendingtimeStepwise_eq (array : orig.length = 24) :
    (updateSendingtimeStepwise soh version clock pmsg orig).map
        (fun result => (result.1, cString result.2)) =
      updateSendingtime soh version clock pmsg := by
  unfold updateSendingtimeStepwise updateSendingtime
  cases tagged : strnstr pmsg.partMsg (sendingTimeTag soh) pmsg.length with
  | none => rfl
  | some found =>
    simp only [Option.bind_eq_bind, Option.bind_some,
      saveSendingtime_eq array, writeSendingtime_eq, length_sendingTime]
    generalize found + (sendingTimeTag soh).length = pos
    have saved : cString (blit orig 0 (strncpy (pmsg.partMsg.drop pos)
        (stampLength version) ++ [0])) =
          cString (window pmsg.partMsg pos (stampLength version)) := by
      rw [blit_zero, List.append_assoc, List.singleton_append, cString_strncpy]
      rfl
    cases memcpy pmsg.partMsg pos (sendingTime version clock ++ [soh]) with
    | none => rfl
    | some updated => simp only [Option.bind_some, Option.map_some, saved]

end Stepwise

section Frame

theorem blit_between {head old new tail : List UInt8} (same : new.length = old.length) :
    blit (head ++ old ++ tail) head.length new = head ++ new ++ tail := by
  have behind : (head ++ old ++ tail).drop (head.length + new.length) = tail := by
    rw [same, ← List.length_append, List.drop_left]
  rw [blit, behind, List.append_assoc head old, List.take_left]

theorem sendingTimeTag_of_memmem {soh : UInt8} {memory : List UInt8} {found : Nat}
    (first : memmem (soh :: ascii ['5', '2', '=']) (cString memory) = some found) :
    sendingTimeTag soh = soh :: ascii ['5', '2', '='] := by
  have occurs := occurs_of_memmem first
  have noNul : (0 : UInt8) ∉ soh :: ascii ['5', '2', '='] := by
    intro member
    exact noNul_cString memory (List.mem_of_mem_drop (occurs.mem member))
  exact cString_eq_self noNul

/-- `update_sendingtime` replaces the value behind the first tag and leaves
everything else in the message.  The old value is saved up to its first NUL. -/
theorem updateSendingtimeStepwise_frame (soh : UInt8) (version : FixVersion)
    (clock : ClockReading) (pmsg : StoredMessage)
    (orig front value back : List UInt8) (array : orig.length = 24)
    (first : memmem (soh :: ascii ['5', '2', '='])
      (cString (pmsg.partMsg.take pmsg.length)) = some front.length)
    (message : pmsg.partMsg =
      front ++ (soh :: ascii ['5', '2', '=']) ++ value ++ soh :: back)
    (width : value.length = stampLength version) :
    ∃ stamp saved,
      updateSendingtimeStepwise soh version clock pmsg orig =
        some ({ pmsg with
          partMsg := front ++ (soh :: ascii ['5', '2', '=']) ++ stamp ++
            soh :: back }, saved) ∧
      stamp.length = value.length ∧ cString saved = cString value ∧
      ((0 : UInt8) ∉ value →
        saved.take (stampLength version + 1) = value ++ [0]) := by
  have tag := sendingTimeTag_of_memmem first
  have stampWidth := length_sendingTime version clock
  have tagged : strnstr pmsg.partMsg (sendingTimeTag soh) pmsg.length =
      some front.length := by
    rw [tag]
    exact first
  generalize headEq : front ++ (soh :: ascii ['5', '2', '=']) = head at message ⊢
  have pos : front.length + (sendingTimeTag soh).length = head.length := by
    rw [tag, ← headEq, List.length_append]
  have old : pmsg.partMsg.drop head.length = value ++ soh :: back := by
    rw [message, List.append_assoc, List.drop_left]
  have valueTaken : (value ++ soh :: back).take (stampLength version) = value := by
    rw [← width, List.take_left]
  have updated : memcpy pmsg.partMsg head.length
      (sendingTime version clock ++ [soh]) =
        some (head ++ sendingTime version clock ++ soh :: back) := by
    have delimited : pmsg.partMsg = head ++ (value ++ [soh]) ++ back := by
      rw [message]
      simp
    rw [delimited, memcpy_of_fits (by simp; omega), blit_between (by simp; omega)]
    simp
  refine ⟨sendingTime version clock,
    blit orig 0 (strncpy (value ++ soh :: back) (stampLength version) ++ [0]),
    ?_, by rw [stampWidth, width], ?_, ?_⟩
  · simp only [updateSendingtimeStepwise, tagged, Option.bind_eq_bind, Option.bind_some, pos, old,
      saveSendingtime_eq array, writeSendingtime_eq, updated]
  · rw [blit_zero, List.append_assoc, List.singleton_append, cString_strncpy, valueTaken]
  · intro noNul
    have copied : strncpy (value ++ soh :: back) (stampLength version) = value := by
      rw [strncpy_of_noNul (by rw [valueTaken]; exact noNul) (by simp; omega),
        valueTaken]
    rw [copied, blit_zero, ← width,
      show value.length + 1 = (value ++ [0]).length by simp, List.take_left]

def leapDay : ClockReading where
  date := ascii ['2', '0', '2', '4', '0', '2', '2', '9', '-', '1', '2', ':',
    '0', '0', ':', '0', '0']
  usec := 125000
  dateLength := by decide
  noNul := by decide
  inSecond := by decide

def stampedMessage (value : List UInt8) : StoredMessage where
  length := value.length + 11
  msgType := ascii ['D']
  partMsg := ascii ['1', '=', 'X'] ++ (1 :: ascii ['5', '2', '=']) ++ value ++
    1 :: (ascii ['1', '0', '='] ++ List.replicate 5 0)
  ttl := ⟨1, 0⟩

/-- A SendingTime with thousandths is replaced. -/
theorem updateSendingtimeStepwise_leapDay :
    ∃ stamp saved,
      updateSendingtimeStepwise 1 .fix44 leapDay
          (stampedMessage (sendingTime .fix44 leapDay)) (List.replicate 24 7) =
        some ({ stampedMessage (sendingTime .fix44 leapDay) with
          partMsg := ascii ['1', '=', 'X'] ++ (1 :: ascii ['5', '2', '=']) ++
            stamp ++ 1 :: (ascii ['1', '0', '='] ++ List.replicate 5 0) },
          saved) ∧
      stamp.length = (sendingTime .fix44 leapDay).length ∧
      cString saved = cString (sendingTime .fix44 leapDay) ∧
      ((0 : UInt8) ∉ sendingTime .fix44 leapDay →
        saved.take (stampLength .fix44 + 1) =
          sendingTime .fix44 leapDay ++ [0]) :=
  updateSendingtimeStepwise_frame 1 .fix44 leapDay
    (stampedMessage (sendingTime .fix44 leapDay)) (List.replicate 24 7)
    (ascii ['1', '=', 'X']) (sendingTime .fix44 leapDay)
    (ascii ['1', '0', '='] ++ List.replicate 5 0) List.length_replicate
    (by decide +kernel) rfl (length_sendingTime .fix44 leapDay)

def cutValue : List UInt8 := ascii ['2', '0'] ++ 0 :: List.replicate 14 57

/-- Of a value with a NUL in it only the part in front of the NUL is saved. -/
theorem updateSendingtimeStepwise_cut :
    cutValue.length = stampLength .fix40 ∧
      memmem (1 :: ascii ['5', '2', '=']) (cString
        ((stampedMessage cutValue).partMsg.take
          (stampedMessage cutValue).length)) = some 3 ∧
      (updateSendingtimeStepwise 1 .fix40 leapDay (stampedMessage cutValue)
          (List.replicate 24 7)).map (fun result => result.2.take 18) =
        some (ascii ['2', '0'] ++ List.replicate 16 0) ∧
      ascii ['2', '0'] ++ List.replicate 16 0 ≠ cutValue ++ [0] := by
  decide +kernel

end Frame

end MercuryFix
