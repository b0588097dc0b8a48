import MercuryFix.Ipc

/-!
# Frames on a stream

`recv_cmd` asks for as many bytes as its buffer has room for.  It returns one frame
after the other if no read goes over the end of a frame, and only then.
-/

namespace MercuryFix

structure IsFrame (frame : List UInt8) : Prop where
  headed : ipcHeaderSize ≤ frame.length
  length_eq : frame.length = ipcdataGetDatalen frame + ipcHeaderSize

instance : DecidablePred IsFrame := fun frame =>
  decidable_of_iff
    (ipcHeaderSize ≤ frame.length ∧ frame.length = ipcdataGetDatalen frame + ipcHeaderSize)
    ⟨fun ⟨headed, lengthEq⟩ => ⟨headed, lengthEq⟩, fun ⟨headed, lengthEq⟩ => ⟨headed, lengthEq⟩⟩

theorem ipcdataGetDatalen_append {bytes : List UInt8}
    (headed : ipcHeaderSize ≤ bytes.length) (rest : List UInt8) :
    ipcdataGetDatalen (bytes ++ rest) = ipcdataGetDatalen bytes := by
  have inside : 4 ≤ (bytes.drop ipcDatalengthOffset).length := by
    rw [List.length_drop]
    unfold ipcHeaderSize at headed
    unfold ipcDatalengthOffset
    omega
  have offset : ipcDatalengthOffset ≤ bytes.length := le_trans (by decide) headed
  rw [ipcdataGetDatalen, ipcdataGetDatalen, getu32, getu32,
    List.drop_append_of_le_length offset, List.take_append_of_le_length inside]

variable {bufLen size : Nat} {bytes : List UInt8}

section Loop

theorem recvLoop_taken {results : List (Option (List UInt8))} {received : Received}
    (returns : recvLoop bufLen size results bytes = some received)
    (done : received.done = true) :
    ∃ taken : List (List UInt8), results = taken.map some ++ received.rest ∧
      received.bytes = bytes ++ taken.flatten := by
  induction results generalizing bytes with
  | nil =>
    rw [recvLoop] at returns
    obtain ⟨-, same⟩ := Option.ite_none_right_eq_some.mp returns
    cases same
    exact ⟨[], rfl, (List.append_nil _).symm⟩
  | cons result results induction =>
    unfold recvLoop at returns
    split at returns
    · cases returns
      exact ⟨[], rfl, (List.append_nil _).symm⟩
    · cases result with
      | none =>
        cases returns
        cases done
      | some chunk =>
        obtain ⟨-, returns⟩ := Option.ite_none_left_eq_some.mp returns
        split at returns
        · cases returns
          cases done
        · obtain ⟨taken, resultsEq, bytesEq⟩ := induction returns
          refine ⟨chunk :: taken, ?_, ?_⟩
          · rw [List.map_cons, List.cons_append, ← resultsEq]
          · rw [bytesEq, List.flatten_cons, List.append_assoc]

theorem recvLoop_enough (bufLen size : Nat) (bytes : List UInt8)
    (chunks : List (List UInt8)) (rest : List (Option (List UInt8)))
    (nonempty : ∀ chunk ∈ chunks, chunk ≠ [])
    (fits : (bytes ++ chunks.flatten).length ≤ bufLen)
    (enough : size ≤ (bytes ++ chunks.flatten).length) :
    ∃ taken left, chunks = taken ++ left ∧ size ≤ (bytes ++ taken.flatten).length ∧
      recvLoop bufLen size (chunks.map some ++ rest) bytes =
        some ⟨true, bytes ++ taken.flatten, left.map some ++ rest⟩ := by
  induction chunks generalizing bytes with
  | nil =>
    refine ⟨[], [], rfl, enough, ?_⟩
    rw [List.flatten_nil, List.append_nil] at enough ⊢
    cases rest with
    | nil => exact if_pos enough
    | cons result rest => exact if_pos enough
  | cons chunk chunks induction =>
    rw [List.flatten_cons, ← List.append_assoc] at fits enough
    by_cases full : size ≤ bytes.length
    · refine ⟨[], chunk :: chunks, rfl, ?_, ?_⟩
      · rwa [List.flatten_nil, List.append_nil]
      · rw [List.flatten_nil, List.append_nil]
        exact if_pos full
    · obtain ⟨taken, left, same, reached, returns⟩ := induction (bytes ++ chunk)
        (fun other member => nonempty other (List.mem_cons_of_mem _ member))
        fits enough
      have inside : ¬ bufLen - bytes.length < chunk.length := by
        rw [List.length_append, List.length_append] at fits
        omega
      refine ⟨chunk :: taken, left, ?_, ?_, ?_⟩
      · rw [same, List.cons_append]
      · rwa [List.flatten_cons, ← List.append_assoc]
      · rw [List.map_cons, List.cons_append, recvLoop, if_neg full]
        rw [if_neg inside, if_neg (nonempty chunk List.mem_cons_self), returns,
          List.flatten_cons, List.append_assoc]

end Loop

section Call

theorem recvCmd_taken {results : List (Option (List UInt8))}
    {received : Received} (returns : recvCmd bufLen results = some received)
    (done : received.done = true) :
    ∃ taken : List (List UInt8), results = taken.map some ++ received.rest ∧
      received.bytes = taken.flatten := by
  rw [recvCmd] at returns
  split at returns
  · cases returns
    cases done
  · obtain ⟨header, headerReturns, returns⟩ := Option.bind_eq_some_iff.mp returns
    split at returns
    case isTrue headerDone =>
      obtain ⟨front, frontEq, headerBytes⟩ := recvLoop_taken headerReturns headerDone
      dsimp only at returns
      split at returns
      · cases returns
        cases done
      · obtain ⟨more, moreEq, bytesEq⟩ := recvLoop_taken returns done
        refine ⟨front ++ more, ?_, ?_⟩
        · rw [frontEq, moreEq, List.map_append, List.append_assoc]
        · rw [bytesEq, headerBytes, List.nil_append, List.flatten_append]
    case isFalse failed =>
      cases returns
      exact absurd done failed

theorem recvCmd_frame {frame : List UInt8} {chunks : List (List UInt8)}
    (isFrame : IsFrame frame) (fits : frame.length ≤ bufLen)
    (nonempty : ∀ chunk ∈ chunks, chunk ≠ []) (whole : chunks.flatten = frame)
    (rest : List (Option (List UInt8))) :
    recvCmd bufLen (chunks.map some ++ rest) = some ⟨true, frame, rest⟩ := by
  obtain ⟨headed, lengthEq⟩ := isFrame
  have positive : bufLen ≠ 0 := by
    unfold ipcHeaderSize at headed
    omega
  obtain ⟨front, left, parts, headerIn, headerReturns⟩ :=
    recvLoop_enough bufLen ipcHeaderSize [] chunks rest nonempty
      (by rwa [List.nil_append, whole]) (by rwa [List.nil_append, whole])
  rw [List.nil_append] at headerIn headerReturns
  have frontLeft : front.flatten ++ left.flatten = frame := by
    rw [← List.flatten_append, ← parts, whole]
  have datalen : ipcdataGetDatalen front.flatten + ipcHeaderSize = frame.length := by
    rw [lengthEq, ← frontLeft, ipcdataGetDatalen_append headerIn]
  have nonemptyLeft : ∀ chunk ∈ left, chunk ≠ [] := fun chunk member =>
    nonempty chunk (parts ▸ List.mem_append_right _ member)
  obtain ⟨more, unread, leftParts, reached, returns⟩ :=
    recvLoop_enough bufLen frame.length front.flatten left rest nonemptyLeft
      (by rwa [frontLeft]) (by rw [frontLeft])
  -- The loop has reached the length of the frame, so no part can be left.
  have unreadNil : unread = [] := by
    have lengths := congrArg List.length frontLeft
    rw [leftParts, List.flatten_append, ← List.append_assoc, List.length_append] at lengths
    have empty : unread.flatten = [] := List.length_eq_zero_iff.mp (by omega)
    cases unread with
    | nil => rfl
    | cons chunk unread =>
      refine absurd (List.flatten_eq_nil_iff.mp empty chunk
        List.mem_cons_self) (nonemptyLeft chunk ?_)
      rw [leftParts]
      exact List.mem_append_right _ List.mem_cons_self
  rw [leftParts, unreadNil, List.append_nil] at frontLeft
  rw [recvCmd, if_neg positive, headerReturns]
  simp only [Option.bind_eq_bind, Option.bind_some, if_true]
  rw [datalen, if_neg (not_lt.mpr fits), returns, frontLeft, unreadNil,
    List.map_nil, List.nil_append]

end Call

section Calls

theorem recvCmds_taken {calls : Nat} {results rest : List (Option (List UInt8))}
    {frames : List (List UInt8)}
    (returns : recvCmds bufLen calls results = some (frames, rest)) :
    ∃ groups : List (List (List UInt8)),
      results = groups.flatten.map some ++ rest ∧ groups.map List.flatten = frames := by
  induction calls generalizing results frames with
  | zero =>
    cases returns
    exact ⟨[], rfl, rfl⟩
  | succ calls induction =>
    rw [recvCmds] at returns
    obtain ⟨received, first, returns⟩ := Option.bind_eq_some_iff.mp returns
    obtain ⟨done, returns⟩ := Option.ite_none_right_eq_some.mp returns
    obtain ⟨⟨later, left⟩, others, returns⟩ := Option.bind_eq_some_iff.mp returns
    cases returns
    obtain ⟨group, resultsEq, bytesEq⟩ := recvCmd_taken first done
    obtain ⟨groups, restEq, framesEq⟩ := induction others
    refine ⟨group :: groups, ?_, ?_⟩
    · rw [resultsEq, restEq, List.flatten_cons, List.map_append, List.append_assoc]
    · rw [List.map_cons, bytesEq, framesEq]

theorem recvCmds_frames (groups : List (List (List UInt8)))
    (nonempty : ∀ chunk ∈ groups.flatten, chunk ≠ [])
    (isFrame : ∀ frame ∈ groups.map List.flatten, IsFrame frame ∧ frame.length ≤ bufLen)
    (rest : List (Option (List UInt8))) :
    recvCmds bufLen groups.length (groups.flatten.map some ++ rest) =
      some (groups.map List.flatten, rest) := by
  induction groups with
  | nil => rfl
  | cons group groups induction =>
    rw [List.map_cons] at isFrame
    rw [List.flatten_cons] at nonempty
    obtain ⟨headed, fits⟩ := isFrame group.flatten List.mem_cons_self
    have later := induction (fun chunk member => nonempty chunk (List.mem_append_right _ member))
      (fun frame member => isFrame frame (List.mem_cons_of_mem _ member))
    have first := recvCmd_frame headed fits
      (fun chunk member => nonempty chunk (List.mem_append_left _ member)) rfl
      (groups.flatten.map some ++ rest)
    rw [List.flatten_cons, List.map_append, List.append_assoc, List.length_cons, recvCmds, first]
    simp only [Option.bind_eq_bind, Option.bind_some, if_true, later]
    rfl

/-- Calls of `recv_cmd` return the frames of a stream in order, and leave nothing,
exactly when each frame has reads of its own. -/
theorem recvCmds_frames_iff (bufLen : Nat) (frames chunks : List (List UInt8))
    (isFrame : ∀ frame ∈ frames, IsFrame frame ∧ frame.length ≤ bufLen)
    (nonempty : ∀ chunk ∈ chunks, chunk ≠ [])
    (stream : chunks.flatten = frames.flatten) :
    recvCmds bufLen frames.length (chunks.map some) = some (frames, []) ↔
      ∃ groups : List (List (List UInt8)),
        groups.flatten = chunks ∧ groups.map List.flatten = frames := by
  constructor
  · intro returns
    obtain ⟨groups, resultsEq, framesEq⟩ := recvCmds_taken returns
    rw [List.append_nil] at resultsEq
    exact ⟨groups, (List.map_injective_iff.mpr (Option.some_injective _)
      resultsEq).symm, framesEq⟩
  · rintro ⟨groups, rfl, rfl⟩
    have returns := recvCmds_frames groups nonempty isFrame []
    rwa [List.append_nil, ← List.length_map List.flatten] at returns

theorem recvCmds_frames_apart :
    recvCmds ipcBufferSize 2
        [some [0, 0, 0], some [1, 0, 0, 0, 0], some [0, 0, 0, 2, 0, 0, 0, 1, 7]] =
      some ([[0, 0, 0, 1, 0, 0, 0, 0], [0, 0, 0, 2, 0, 0, 0, 1, 7]], []) :=
  (recvCmds_frames_iff ipcBufferSize
    [[0, 0, 0, 1, 0, 0, 0, 0], [0, 0, 0, 2, 0, 0, 0, 1, 7]]
    [[0, 0, 0], [1, 0, 0, 0, 0], [0, 0, 0, 2, 0, 0, 0, 1, 7]]
    (by decide) (by decide) (by decide)).mpr
      ⟨[[[0, 0, 0], [1, 0, 0, 0, 0]], [[0, 0, 0, 2, 0, 0, 0, 1, 7]]], rfl, rfl⟩

/-- One read takes two frames, and the first call returns both. -/
theorem frames_read_together :
    IsFrame [0, 0, 0, 1, 0, 0, 0, 0] ∧ IsFrame [0, 0, 0, 2, 0, 0, 0, 0] ∧
      recvCmd ipcBufferSize
          [some [0, 0, 0, 1, 0, 0, 0, 0, 0, 0, 0, 2, 0, 0, 0, 0]] =
        some ⟨true, [0, 0, 0, 1, 0, 0, 0, 0, 0, 0, 0, 2, 0, 0, 0, 0], []⟩ ∧
      recvCmds ipcBufferSize 2
          [some [0, 0, 0, 1, 0, 0, 0, 0, 0, 0, 0, 2, 0, 0, 0, 0]] = none := by
  decide

end Calls

end MercuryFix
